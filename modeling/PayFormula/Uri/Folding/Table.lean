import PayFormula.Text.Character

/-!
# What characters of host names count as

Capital letters count as small ones, letters and digits of special shapes as plain
ones, and signs made of several characters as these. Characters that stand for the
same characters in every text are not in these tables.
-/
namespace PayFormula.Uri.Folding

/-- Rows of letters: the first and the last of a row, the step from each to the next,
and what the first one counts as. -/
def letters : List (Nat × Nat × Nat × Nat) := [
  (0xc0, 0xd6, 1, 0xe0), (0xd8, 0xde, 1, 0xf8), (0x100, 0x12e, 2, 0x101), (0x141, 0x147, 2, 0x142),
  (0x14a, 0x176, 2, 0x14b), (0x1cd, 0x1db, 2, 0x1ce), (0x1de, 0x1ee, 2, 0x1df),
  (0x1f8, 0x21e, 2, 0x1f9), (0x222, 0x232, 2, 0x223), (0x246, 0x24e, 2, 0x247),
  (0x391, 0x3a1, 1, 0x3b1), (0x3a3, 0x3ab, 1, 0x3c3), (0x3d8, 0x3ee, 2, 0x3d9),
  (0x400, 0x40f, 1, 0x450), (0x410, 0x42f, 1, 0x430), (0x460, 0x480, 2, 0x461),
  (0x48a, 0x4be, 2, 0x48b), (0x4c1, 0x4cd, 2, 0x4c2), (0x4d0, 0x52e, 2, 0x4d1),
  (0x531, 0x556, 1, 0x561), (0x10a0, 0x10c5, 1, 0x2d00), (0x13f8, 0x13fd, 1, 0x13f0),
  (0x1c90, 0x1cba, 1, 0x10d0), (0x1d31, 0x1d39, 2, 0x65), (0x1d34, 0x1d3a, 2, 0x68),
  (0x1dae, 0x1db1, 1, 0x272), (0x1e00, 0x1e94, 2, 0x1e01), (0x1ea0, 0x1efe, 2, 0x1ea1),
  (0x1f08, 0x1f0f, 1, 0x1f00), (0x1f18, 0x1f1d, 1, 0x1f10), (0x1f28, 0x1f2f, 1, 0x1f20),
  (0x1f38, 0x1f3f, 1, 0x1f30), (0x1f48, 0x1f4d, 1, 0x1f40), (0x1f59, 0x1f5f, 2, 0x1f51),
  (0x1f68, 0x1f6f, 1, 0x1f60), (0x2074, 0x2079, 1, 0x34), (0x2080, 0x2089, 1, 0x30),
  (0x2096, 0x2099, 1, 0x6b), (0x2135, 0x2138, 1, 0x5d0), (0x2460, 0x2468, 1, 0x31),
  (0x24b6, 0x24cf, 1, 0x61), (0x24d0, 0x24e9, 1, 0x61), (0x2c00, 0x2c2f, 1, 0x2c30),
  (0x2c80, 0x2ce2, 2, 0x2c81), (0x313a, 0x313f, 1, 0x11b0), (0x3145, 0x314e, 1, 0x1109),
  (0x314f, 0x3163, 1, 0x1161), (0x3178, 0x317c, 1, 0x112b), (0x3269, 0x326d, 1, 0x110e),
  (0x32e4, 0x32e9, 1, 0x30ca), (0x32ee, 0x32f2, 1, 0x30de), (0x32f5, 0x32fa, 1, 0x30e8),
  (0x32fb, 0x32fe, 1, 0x30ef), (0xa640, 0xa66c, 2, 0xa641), (0xa680, 0xa69a, 2, 0xa681),
  (0xa722, 0xa72e, 2, 0xa723), (0xa732, 0xa76e, 2, 0xa733), (0xa77e, 0xa786, 2, 0xa77f),
  (0xa796, 0xa7a8, 2, 0xa797), (0xa7b4, 0xa7c2, 2, 0xa7b5), (0xa7cc, 0xa7da, 2, 0xa7cd),
  (0xab70, 0xabbf, 1, 0x13a0), (0xfe41, 0xfe44, 1, 0x300c), (0xff02, 0xff18, 2, 0x22),
  (0xff07, 0xff0d, 2, 0x27), (0xff11, 0xff1d, 2, 0x31), (0xff21, 0xff3a, 1, 0x61),
  (0xff3f, 0xff5b, 1, 0x5f), (0xff85, 0xff8a, 1, 0x30ca), (0xff8f, 0xff93, 1, 0x30de),
  (0xff96, 0xff9b, 1, 0x30e8), (0xffaa, 0xffaf, 1, 0x11b0), (0xffb5, 0xffbe, 1, 0x1109),
  (0xffc2, 0xffc7, 1, 0x1161), (0xffca, 0xffcf, 1, 0x1167), (0xffd2, 0xffd7, 1, 0x116d),
  (0xffe9, 0xffec, 1, 0x2190), (0x10400, 0x10427, 1, 0x10428), (0x104b0, 0x104d3, 1, 0x104d8),
  (0x10570, 0x10594, 2, 0x10597), (0x10571, 0x10579, 2, 0x10598), (0x1057d, 0x10589, 2, 0x105a4),
  (0x10c80, 0x10cb2, 1, 0x10cc0), (0x10d50, 0x10d65, 1, 0x10d70), (0x118a0, 0x118bf, 1, 0x118c0),
  (0x16e40, 0x16e5f, 1, 0x16e60), (0x16ea0, 0x16eb8, 1, 0x16ebb), (0x1ccd6, 0x1ccef, 1, 0x61),
  (0x1ccf0, 0x1ccf9, 1, 0x30), (0x1d400, 0x1d419, 1, 0x61), (0x1d41a, 0x1d433, 1, 0x61),
  (0x1d434, 0x1d44d, 1, 0x61), (0x1d44e, 0x1d466, 2, 0x61), (0x1d457, 0x1d467, 2, 0x6a),
  (0x1d468, 0x1d481, 1, 0x61), (0x1d482, 0x1d49b, 1, 0x61), (0x1d4a9, 0x1d4ac, 1, 0x6e),
  (0x1d4ae, 0x1d4b5, 1, 0x73), (0x1d4b6, 0x1d4b9, 1, 0x61), (0x1d4bb, 0x1d4cf, 2, 0x66),
  (0x1d4c6, 0x1d4ce, 2, 0x71), (0x1d4d0, 0x1d4e9, 1, 0x61), (0x1d4ea, 0x1d503, 1, 0x61),
  (0x1d507, 0x1d50a, 1, 0x64), (0x1d50d, 0x1d514, 1, 0x6a), (0x1d516, 0x1d51c, 1, 0x73),
  (0x1d51e, 0x1d537, 1, 0x61), (0x1d53b, 0x1d53e, 1, 0x64), (0x1d540, 0x1d544, 1, 0x69),
  (0x1d54a, 0x1d550, 1, 0x73), (0x1d552, 0x1d56b, 1, 0x61), (0x1d56c, 0x1d585, 1, 0x61),
  (0x1d586, 0x1d59f, 1, 0x61), (0x1d5a0, 0x1d5b9, 1, 0x61), (0x1d5ba, 0x1d5d3, 1, 0x61),
  (0x1d5d4, 0x1d5ed, 1, 0x61), (0x1d5ee, 0x1d607, 1, 0x61), (0x1d608, 0x1d621, 1, 0x61),
  (0x1d622, 0x1d63b, 1, 0x61), (0x1d63c, 0x1d655, 1, 0x61), (0x1d656, 0x1d66f, 1, 0x61),
  (0x1d670, 0x1d689, 1, 0x61), (0x1d68a, 0x1d6a3, 1, 0x61), (0x1d6a8, 0x1d6b8, 1, 0x3b1),
  (0x1d6ba, 0x1d6c0, 1, 0x3c3), (0x1d6c2, 0x1d6d2, 1, 0x3b1), (0x1d6d4, 0x1d6da, 1, 0x3c3),
  (0x1d6e2, 0x1d6f2, 1, 0x3b1), (0x1d6f4, 0x1d6fa, 1, 0x3c3), (0x1d6fc, 0x1d70c, 1, 0x3b1),
  (0x1d70e, 0x1d714, 1, 0x3c3), (0x1d71c, 0x1d72c, 1, 0x3b1), (0x1d72e, 0x1d734, 1, 0x3c3),
  (0x1d736, 0x1d746, 1, 0x3b1), (0x1d748, 0x1d74e, 1, 0x3c3), (0x1d756, 0x1d766, 1, 0x3b1),
  (0x1d768, 0x1d76e, 1, 0x3c3), (0x1d770, 0x1d780, 1, 0x3b1), (0x1d782, 0x1d788, 1, 0x3c3),
  (0x1d790, 0x1d7a0, 1, 0x3b1), (0x1d7a2, 0x1d7a8, 1, 0x3c3), (0x1d7aa, 0x1d7ba, 1, 0x3b1),
  (0x1d7bc, 0x1d7c2, 1, 0x3c3), (0x1d7ce, 0x1d7d7, 1, 0x30), (0x1d7d8, 0x1d7e1, 1, 0x30),
  (0x1d7e2, 0x1d7eb, 1, 0x30), (0x1d7ec, 0x1d7f5, 1, 0x30), (0x1d7f6, 0x1d7ff, 1, 0x30),
  (0x1e030, 0x1e038, 1, 0x430), (0x1e03c, 0x1e046, 1, 0x43e), (0x1e051, 0x1e059, 1, 0x430),
  (0x1e05f, 0x1e064, 1, 0x443), (0x1e900, 0x1e921, 1, 0x1e922), (0x1ee0a, 0x1ee0d, 1, 0x643),
  (0x1ee2a, 0x1ee2d, 1, 0x643), (0x1f130, 0x1f149, 1, 0x61), (0x1fbf0, 0x1fbf9, 1, 0x30)]

/-- What consecutive characters up to U+FBDD, of which the first is given, count as. -/
def formsFromAA : List (Nat × String) := [
  (0xaa, "a"), (0xb2, "2 3"), (0xb5, "μ"), (0xb9, "1 o"), (0xbc, "1⁄4 1⁄2 3⁄4"), (0x130, "i\u0307"),
  (0x132, "ij ij ĵ"), (0x136, "ķ"), (0x139, "ĺ"), (0x13b, "ļ"), (0x13d, "ľ"), (0x13f, "l· l·"),
  (0x149, "ʼn"), (0x178, "ÿ ź"), (0x17b, "ż"), (0x17d, "ž"), (0x17f, "s"), (0x181, "ɓ ƃ"),
  (0x184, "ƅ"), (0x186, "ɔ ƈ"), (0x189, "ɖ ɗ ƌ"), (0x18e, "ǝ ə ɛ ƒ"), (0x193, "ɠ ɣ"),
  (0x196, "ɩ ɨ ƙ"), (0x19c, "ɯ ɲ"), (0x19f, "ɵ ơ"), (0x1a2, "ƣ"), (0x1a4, "ƥ"), (0x1a6, "ʀ ƨ"),
  (0x1a9, "ʃ"), (0x1ac, "ƭ"), (0x1ae, "ʈ ư"), (0x1b1, "ʊ ʋ ƴ"), (0x1b5, "ƶ"), (0x1b7, "ʒ ƹ"),
  (0x1bc, "ƽ"), (0x1c4, "dž dž dž lj lj lj nj nj nj"), (0x1f1, "dz dz dz ǵ"), (0x1f6, "ƕ ƿ"),
  (0x220, "ƞ"), (0x23a, "ⱥ ȼ"), (0x23d, "ƚ ⱦ"), (0x241, "ɂ"), (0x243, "ƀ ʉ ʌ"),
  (0x2b0, "h ɦ j r ɹ ɻ ʁ w y"), (0x2e0, "ɣ l s x ʕ"), (0x345, "ι"), (0x370, "ͱ"), (0x372, "ͳ"),
  (0x376, "ͷ"), (0x37f, "ϳ"), (0x386, "ά"), (0x388, "έ ή ί"), (0x38c, "ό"), (0x38e, "ύ ώ"),
  (0x3cf, "ϗ β θ υ ύ ϋ φ π"), (0x3f0, "κ ρ σ"), (0x3f4, "θ ε"), (0x3f7, "ϸ"), (0x3f9, "σ ϻ"),
  (0x3fd, "ͻ ͼ ͽ"), (0x4c0, "ӏ"), (0x587, "եւ"),
  (0x675, "\u0627\u0674 \u0648\u0674 \u06c7\u0674 \u064a\u0674"), (0xe33, "\u0e4dา"),
  (0xeb3, "\u0ecdາ"), (0xedc, "ຫນ ຫມ"), (0xf0c, "་"), (0xf77, "\u0fb2\u0f71\u0f80"),
  (0xf79, "\u0fb3\u0f71\u0f80"), (0x10c7, "ⴧ"), (0x10cd, "ⴭ"), (0x10fc, "ნ"),
  (0x1c80, "в д о с т т ъ ѣ ꙋ ᲊ"), (0x1cbd, "ჽ ჾ ჿ"), (0x1d2c, "a æ b"), (0x1d30, "d"),
  (0x1d32, "ǝ"), (0x1d3c, "o ȣ p r t u w a ɐ ɑ ᴂ b d e ə ɛ ɜ g"),
  (0x1d4f, "k m ŋ o ɔ ᴖ ᴗ p t u ᴝ ɯ v ᴥ β γ δ φ χ i r u v β γ ρ φ χ"), (0x1d78, "н"),
  (0x1d9b, "ɒ c ɕ ð ɜ f ɟ ɡ ɥ ɨ ɩ ɪ ᵻ ʝ ɭ ᶅ ʟ ɱ ɰ"), (0x1db2, "ɸ ʂ ʃ ƫ ʉ ʊ ᴜ ʋ ʌ z ʐ ʑ ʒ θ"),
  (0x1e9a, "aʾ ṡ"), (0x1e9e, "ß"),
  (0x1f80, "ἀι ἁι ἂι ἃι ἄι ἅι ἆι ἇι ἀι ἁι ἂι ἃι ἄι ἅι ἆι ἇι ἠι ἡι ἢι ἣι ἤι ἥι ἦι ἧι ἠι ἡι ἢι ἣι"),
  (0x1f9c, "ἤι ἥι ἦι ἧι ὠι ὡι ὢι ὣι ὤι ὥι ὦι ὧι ὠι ὡι ὢι ὣι ὤι ὥι ὦι ὧι"), (0x1fb2, "ὰι αι άι"),
  (0x1fb7, "ᾶι ᾰ ᾱ ὰ ά αι"), (0x1fc2, "ὴι ηι ήι"), (0x1fc7, "ῆι ὲ έ ὴ ή ηι"), (0x1fd8, "ῐ ῑ ὶ ί"),
  (0x1fe8, "ῠ ῡ ὺ ύ ῥ"), (0x1ff2, "ὼι ωι ώι"), (0x1ff7, "ῶι ὸ ό ὼ ώ ωι"), (0x2011, "‐"),
  (0x2033, "′′ ′′′"), (0x2036, "‵‵ ‵‵‵"), (0x203c, "!!"), (0x2057, "′′′′"), (0x2070, "0 i"),
  (0x207a, "+ − = ( ) n"), (0x208a, "+ − = ( )"), (0x2090, "a e o x ə h"), (0x209a, "p s t"),
  (0x20a8, "rs"), (0x2102, "c °c"), (0x2107, "ɛ"), (0x2109, "°f g h h h h ħ i i l l"),
  (0x2115, "n no"), (0x2119, "p q r r r"), (0x2120, "sm tel tm"), (0x2124, "z"), (0x2126, "ω"),
  (0x2128, "z"), (0x212a, "k å b c"), (0x212f, "e e f ⅎ m o"), (0x2139, "i"),
  (0x213b, "fax π γ γ π ∑"), (0x2145, "d d e i j"),
  (0x2150, "1⁄7 1⁄9 1⁄10 1⁄3 2⁄3 1⁄5 2⁄5 3⁄5 4⁄5 1⁄6 5⁄6 1⁄8 3⁄8 5⁄8 7⁄8 1⁄ i ii iii iv v vi vii"),
  (0x2167, "viii ix x xi xii l c d m i ii iii iv v vi vii viii ix x xi xii l c d m"), (0x2183, "ↄ"),
  (0x2189, "0⁄3"), (0x222c, "∫∫ ∫∫∫"), (0x222f, "∮∮ ∮∮∮"),
  (0x2469, "10 11 12 13 14 15 16 17 18 19 20 (1) (2) (3) (4) (5) (6) (7) (8) (9) (10) (11) (12)"),
  (0x2480, "(13) (14) (15) (16) (17) (18) (19) (20)"),
  (0x249c, "(a) (b) (c) (d) (e) (f) (g) (h) (i) (j) (k) (l) (m) (n) (o) (p) (q) (r) (s) (t) (u)"),
  (0x24b1, "(v) (w) (x) (y) (z)"), (0x24ea, "0"), (0x2a0c, "∫∫∫∫"), (0x2a75, "== ==="),
  (0x2c60, "ⱡ"), (0x2c62, "ɫ ᵽ ɽ"), (0x2c67, "ⱨ"), (0x2c69, "ⱪ"), (0x2c6b, "ⱬ"),
  (0x2c6d, "ɑ ɱ ɐ ɒ"), (0x2c72, "ⱳ"), (0x2c75, "ⱶ"), (0x2c7c, "j v ȿ ɀ"), (0x2ceb, "ⳬ"),
  (0x2ced, "ⳮ"), (0x2cf2, "ⳳ"), (0x2d6f, "ⵡ"), (0x2e9f, "母"), (0x2ef3, "龟"),
  (0x2f00, "一 丨 丶 丿 乙 亅 二 亠 人 儿 入 八 冂 冖 冫 几 凵 刀 力 勹 匕 匚 匸 十 卜 卩 厂 厶 又 口 囗 土 士 夂 夊 夕 大 女 子 宀 寸 小"),
  (0x2f2a, "尢 尸 屮 山 巛 工 己 巾 干 幺 广 廴 廾 弋 弓 彐 彡 彳 心 戈 戶 手 支 攴 文 斗 斤 方 无 日 曰 月 木 欠 止 歹 殳 毋 比 毛 氏 气"),
  (0x2f54, "水 火 爪 父 爻 爿 片 牙 牛 犬 玄 玉 瓜 瓦 甘 生 用 田 疋 疒 癶 白 皮 皿 目 矛 矢 石 示 禸 禾 穴 立 竹 米 糸 缶 网 羊 羽 老 而"),
  (0x2f7e, "耒 耳 聿 肉 臣 自 至 臼 舌 舛 舟 艮 色 艸 虍 虫 血 行 衣 襾 見 角 言 谷 豆 豕 豸 貝 赤 走 足 身 車 辛 辰 辵 邑 酉 釆 里 金 長"),
  (0x2fa8, "門 阜 隶 隹 雨 靑 非 面 革 韋 韭 音 頁 風 飛 食 首 香 馬 骨 高 髟 鬥 鬯 鬲 鬼 魚 鳥 鹵 鹿 麥 麻 黃 黍 黑 黹 黽 鼎 鼓 鼠 鼻 齊"),
  (0x2fd2, "齒 龍 龜 龠"), (0x3002, "."), (0x3036, "〒"), (0x3038, "十 卄 卅"), (0x309f, "より"),
  (0x30ff, "コト"), (0x3131, "\u1100 \u1101 \u11aa \u1102 \u11ac \u11ad \u1103 \u1104 \u1105"),
  (0x3140, "\u111a \u1106 \u1107 \u1108 \u1121"),
  (0x3165, "\u1114 \u1115 \u11c7 \u11c8 \u11cc \u11ce \u11d3 \u11d7 \u11d9 \u111c \u11dd \u11df"),
  (0x3171, "\u111d \u111e \u1120 \u1122 \u1123 \u1127 \u1129"),
  (0x317d, "\u1132 \u1136 \u1140 \u1147 \u114c \u11f1 \u11f2 \u1157 \u1158 \u1159 \u1184 \u1185"),
  (0x3189, "\u1188 \u1191 \u1192 \u1194 \u119e \u11a1"), (0x3192, "一 二 三 四 上 中 下 甲 乙 丙 丁 天 地 人"),
  (0x3200, "(\u1100) (\u1102) (\u1103) (\u1105) (\u1106) (\u1107) (\u1109) (\u110b) (\u110c)"),
  (0x3209, "(\u110e) (\u110f) (\u1110) (\u1111) (\u1112) (가) (나) (다) (라) (마) (바) (사) (아) (자) (차)"),
  (0x3218, "(카) (타) (파) (하) (주) (오전) (오후)"),
  (0x3220, "(一) (二) (三) (四) (五) (六) (七) (八) (九) (十) (月) (火) (水) (木) (金) (土) (日) (株) (有) (社) (名)"),
  (0x3235, "(特) (財) (祝) (労) (代) (呼) (学) (監) (企) (資) (協) (祭) (休) (自) (至) 問 幼 文 箏"),
  (0x3250, "pte 21 22 23 24 25 26 27 28 29 30 31 32 33 34 35 \u1100 \u1102 \u1103 \u1105 \u1106"),
  (0x3265, "\u1107 \u1109 \u110b \u110c"), (0x326e, "가 나 다 라 마 바 사 아 자 차 카 타 파 하 참고 주의 우"),
  (0x3280, "一 二 三 四 五 六 七 八 九 十 月 火 水 木 金 土 日 株 有 社 名 特 財 祝 労 秘 男 女 適 優 印 注 項 休 写 正 上 中 下 左 右 医"),
  (0x32aa, "宗 学 監 企 資 協 夜 36 37 38 39 40 41 42 43 44 45 46 47 48 49 50 1月 2月 3月 4月 5月 6月 7月 8月"),
  (0x32c8, "9月 10月 11月 12月 hg erg ev ltd ア イ ウ エ オ カ キ ク ケ コ サ シ ス セ ソ タ チ ツ テ ト"),
  (0x32ea, "ヒ フ ヘ ホ"), (0x32f3, "ヤ ユ"),
  (0x32ff, "令和 アパート アルファ アンペア アール イニング インチ ウォン エスクード エーカー オンス オーム カイリ カラット カロリー ガロン ガンマ ギガ ギニー"),
  (0x3312, "キュリー ギルダー キロ キログラム キロメートル キロワット グラム グラムトン クルゼイロ クローネ ケース コルナ コーポ サイクル サンチーム シリング センチ"),
  (0x3323, "セント ダース デシ ドル トン ナノ ノット ハイツ パーセント パーツ バーレル ピアストル ピクル ピコ ビル ファラッド フィート ブッシェル フラン"),
  (0x3336, "ヘクタール ペソ ペニヒ ヘルツ ペンス ページ ベータ ポイント ボルト ホン ポンド ホール ホーン マイクロ マイル マッハ マルク マンション ミクロン ミリ"),
  (0x334a, "ミリバール メガ メガトン メートル ヤード ヤール ユアン リットル リラ ルピー ルーブル レム レントゲン ワット 0点 1点 2点 3点 4点 5点 6点 7点"),
  (0x3360, "8点 9点 10点 11点 12点 13点 14点 15点 16点 17点 18点 19点 20点 21点 22点 23点 24点 hpa da au bar ov"),
  (0x3376, "pc dm dm2 dm3 iu 平成 昭和 大正 明治 株式会社 pa na μa ma ka kb mb gb cal kcal pf nf μf μg mg kg"),
  (0x3390, "hz khz mhz ghz thz μl ml dl kl fm nm μm mm cm km mm2 cm2 m2 km2 mm3 cm3 m3 km3 m∕s"),
  (0x33a8, "m∕s2 pa kpa mpa gpa rad rad∕s rad∕s2 ps ns μs ms pv nv μv mv kv mv pw nw μw mw kw mw"),
  (0x33c0, "kω mω"), (0x33c3, "bq cc cd c∕kg"),
  (0x33c8, "db gy ha hp in kk km kt lm ln log lx mb mil mol ph"),
  (0x33d9, "ppm pr sr sv wb v∕m a∕m 1日 2日 3日 4日 5日 6日 7日 8日 9日 10日 11日 12日 13日 14日 15日 16日 17日"),
  (0x33f1, "18日 19日 20日 21日 22日 23日 24日 25日 26日 27日 28日 29日 30日 31日 gal"), (0xa69c, "ъ ь"),
  (0xa770, "ꝯ"), (0xa779, "ꝺ"), (0xa77b, "ꝼ"), (0xa77d, "ᵹ"), (0xa78b, "ꞌ"), (0xa78d, "ɥ"),
  (0xa790, "ꞑ"), (0xa792, "ꞓ"), (0xa7aa, "ɦ ɜ ɡ ɬ ɪ"), (0xa7b0, "ʞ ʇ ʝ ꭓ"), (0xa7c4, "ꞔ ʂ ᶎ ꟈ"),
  (0xa7c9, "ꟊ"), (0xa7cb, "ɤ"), (0xa7dc, "ƛ"), (0xa7f1, "s c f q ꟶ"), (0xa7f8, "ħ œ"),
  (0xab5c, "ꜧ ꬷ ɫ ꭒ"), (0xab69, "ʍ"), (0xfb00, "ff fi fl ffi ffl st st"),
  (0xfb13, "մն մե մի վն մխ"),
  (0xfb20, "\u05e2 \u05d0 \u05d3 \u05d4 \u05db \u05dc \u05dd \u05e8 \u05ea +"),
  (0xfb4f, "\u05d0\u05dc \u0671 \u0671 \u067b \u067b \u067b \u067b \u067e \u067e \u067e \u067e"),
  (0xfb5a, "\u0680 \u0680 \u0680 \u0680 \u067a \u067a \u067a \u067a \u067f \u067f \u067f \u067f"),
  (0xfb66, "\u0679 \u0679 \u0679 \u0679 \u06a4 \u06a4 \u06a4 \u06a4 \u06a6 \u06a6 \u06a6 \u06a6"),
  (0xfb72, "\u0684 \u0684 \u0684 \u0684 \u0683 \u0683 \u0683 \u0683 \u0686 \u0686 \u0686 \u0686"),
  (0xfb7e, "\u0687 \u0687 \u0687 \u0687 \u068d \u068d \u068c \u068c \u068e \u068e \u0688 \u0688"),
  (0xfb8a, "\u0698 \u0698 \u0691 \u0691 \u06a9 \u06a9 \u06a9 \u06a9 \u06af \u06af \u06af \u06af"),
  (0xfb96, "\u06b3 \u06b3 \u06b3 \u06b3 \u06b1 \u06b1 \u06b1 \u06b1 \u06ba \u06ba \u06bb \u06bb"),
  (0xfba2, "\u06bb \u06bb \u06c0 \u06c0 \u06c1 \u06c1 \u06c1 \u06c1 \u06be \u06be \u06be \u06be"),
  (0xfbae, "\u06d2 \u06d2 \u06d3 \u06d3"),
  (0xfbd3, "\u06ad \u06ad \u06ad \u06ad \u06c7 \u06c7 \u06c6 \u06c6 \u06c8 \u06c8 \u06c7\u0674")]

/-- What consecutive characters from U+FBDE on, of which the first is given, count as. -/
def formsFromFBDE : List (Nat × String) := [
  (0xfbde, "\u06cb \u06cb \u06c5 \u06c5 \u06c9 \u06c9 \u06d0 \u06d0 \u06d0 \u06d0 \u0649 \u0649"),
  (0xfbea, "\u0626\u0627 \u0626\u0627 \u0626\u06d5 \u0626\u06d5 \u0626\u0648 \u0626\u0648"),
  (0xfbf0, "\u0626\u06c7 \u0626\u06c7 \u0626\u06c6 \u0626\u06c6 \u0626\u06c8 \u0626\u06c8"),
  (0xfbf6, "\u0626\u06d0 \u0626\u06d0 \u0626\u06d0 \u0626\u0649 \u0626\u0649 \u0626\u0649 \u06cc"),
  (0xfbfd, "\u06cc \u06cc \u06cc \u0626\u062c \u0626\u062d \u0626\u0645 \u0626\u0649"),
  (0xfc04, "\u0626\u064a \u0628\u062c \u0628\u062d \u0628\u062e \u0628\u0645 \u0628\u0649"),
  (0xfc0a, "\u0628\u064a \u062a\u062c \u062a\u062d \u062a\u062e \u062a\u0645 \u062a\u0649"),
  (0xfc10, "\u062a\u064a \u062b\u062c \u062b\u0645 \u062b\u0649 \u062b\u064a \u062c\u062d"),
  (0xfc16, "\u062c\u0645 \u062d\u062c \u062d\u0645 \u062e\u062c \u062e\u062d \u062e\u0645"),
  (0xfc1c, "\u0633\u062c \u0633\u062d \u0633\u062e \u0633\u0645 \u0635\u062d \u0635\u0645"),
  (0xfc22, "\u0636\u062c \u0636\u062d \u0636\u062e \u0636\u0645 \u0637\u062d \u0637\u0645"),
  (0xfc28, "\u0638\u0645 \u0639\u062c \u0639\u0645 \u063a\u062c \u063a\u0645 \u0641\u062c"),
  (0xfc2e, "\u0641\u062d \u0641\u062e \u0641\u0645 \u0641\u0649 \u0641\u064a \u0642\u062d"),
  (0xfc34, "\u0642\u0645 \u0642\u0649 \u0642\u064a \u0643\u0627 \u0643\u062c \u0643\u062d"),
  (0xfc3a, "\u0643\u062e \u0643\u0644 \u0643\u0645 \u0643\u0649 \u0643\u064a \u0644\u062c"),
  (0xfc40, "\u0644\u062d \u0644\u062e \u0644\u0645 \u0644\u0649 \u0644\u064a \u0645\u062c"),
  (0xfc46, "\u0645\u062d \u0645\u062e \u0645\u0645 \u0645\u0649 \u0645\u064a \u0646\u062c"),
  (0xfc4c, "\u0646\u062d \u0646\u062e \u0646\u0645 \u0646\u0649 \u0646\u064a \u0647\u062c"),
  (0xfc52, "\u0647\u0645 \u0647\u0649 \u0647\u064a \u064a\u062c \u064a\u062d \u064a\u062e"),
  (0xfc58, "\u064a\u0645 \u064a\u0649 \u064a\u064a \u0630\u0670 \u0631\u0670 \u0649\u0670"),
  (0xfc64, "\u0626\u0631 \u0626\u0632 \u0626\u0645 \u0626\u0646 \u0626\u0649 \u0626\u064a"),
  (0xfc6a, "\u0628\u0631 \u0628\u0632 \u0628\u0645 \u0628\u0646 \u0628\u0649 \u0628\u064a"),
  (0xfc70, "\u062a\u0631 \u062a\u0632 \u062a\u0645 \u062a\u0646 \u062a\u0649 \u062a\u064a"),
  (0xfc76, "\u062b\u0631 \u062b\u0632 \u062b\u0645 \u062b\u0646 \u062b\u0649 \u062b\u064a"),
  (0xfc7c, "\u0641\u0649 \u0641\u064a \u0642\u0649 \u0642\u064a \u0643\u0627 \u0643\u0644"),
  (0xfc82, "\u0643\u0645 \u0643\u0649 \u0643\u064a \u0644\u0645 \u0644\u0649 \u0644\u064a"),
  (0xfc88, "\u0645\u0627 \u0645\u0645 \u0646\u0631 \u0646\u0632 \u0646\u0645 \u0646\u0646"),
  (0xfc8e, "\u0646\u0649 \u0646\u064a \u0649\u0670 \u064a\u0631 \u064a\u0632 \u064a\u0645"),
  (0xfc94, "\u064a\u0646 \u064a\u0649 \u064a\u064a \u0626\u062c \u0626\u062d \u0626\u062e"),
  (0xfc9a, "\u0626\u0645 \u0626\u0647 \u0628\u062c \u0628\u062d \u0628\u062e \u0628\u0645"),
  (0xfca0, "\u0628\u0647 \u062a\u062c \u062a\u062d \u062a\u062e \u062a\u0645 \u062a\u0647"),
  (0xfca6, "\u062b\u0645 \u062c\u062d \u062c\u0645 \u062d\u062c \u062d\u0645 \u062e\u062c"),
  (0xfcac, "\u062e\u0645 \u0633\u062c \u0633\u062d \u0633\u062e \u0633\u0645 \u0635\u062d"),
  (0xfcb2, "\u0635\u062e \u0635\u0645 \u0636\u062c \u0636\u062d \u0636\u062e \u0636\u0645"),
  (0xfcb8, "\u0637\u062d \u0638\u0645 \u0639\u062c \u0639\u0645 \u063a\u062c \u063a\u0645"),
  (0xfcbe, "\u0641\u062c \u0641\u062d \u0641\u062e \u0641\u0645 \u0642\u062d \u0642\u0645"),
  (0xfcc4, "\u0643\u062c \u0643\u062d \u0643\u062e \u0643\u0644 \u0643\u0645 \u0644\u062c"),
  (0xfcca, "\u0644\u062d \u0644\u062e \u0644\u0645 \u0644\u0647 \u0645\u062c \u0645\u062d"),
  (0xfcd0, "\u0645\u062e \u0645\u0645 \u0646\u062c \u0646\u062d \u0646\u062e \u0646\u0645"),
  (0xfcd6, "\u0646\u0647 \u0647\u062c \u0647\u0645 \u0647\u0670 \u064a\u062c \u064a\u062d"),
  (0xfcdc, "\u064a\u062e \u064a\u0645 \u064a\u0647 \u0626\u0645 \u0626\u0647 \u0628\u0645"),
  (0xfce2, "\u0628\u0647 \u062a\u0645 \u062a\u0647 \u062b\u0645 \u062b\u0647 \u0633\u0645"),
  (0xfce8, "\u0633\u0647 \u0634\u0645 \u0634\u0647 \u0643\u0644 \u0643\u0645 \u0644\u0645"),
  (0xfcee, "\u0646\u0645 \u0646\u0647 \u064a\u0645 \u064a\u0647 \u0640\u064e\u0651"),
  (0xfcf3, "\u0640\u064f\u0651 \u0640\u0650\u0651 \u0637\u0649 \u0637\u064a \u0639\u0649"),
  (0xfcf8, "\u0639\u064a \u063a\u0649 \u063a\u064a \u0633\u0649 \u0633\u064a \u0634\u0649"),
  (0xfcfe, "\u0634\u064a \u062d\u0649 \u062d\u064a \u062c\u0649 \u062c\u064a \u062e\u0649"),
  (0xfd04, "\u062e\u064a \u0635\u0649 \u0635\u064a \u0636\u0649 \u0636\u064a \u0634\u062c"),
  (0xfd0a, "\u0634\u062d \u0634\u062e \u0634\u0645 \u0634\u0631 \u0633\u0631 \u0635\u0631"),
  (0xfd10, "\u0636\u0631 \u0637\u0649 \u0637\u064a \u0639\u0649 \u0639\u064a \u063a\u0649"),
  (0xfd16, "\u063a\u064a \u0633\u0649 \u0633\u064a \u0634\u0649 \u0634\u064a \u062d\u0649"),
  (0xfd1c, "\u062d\u064a \u062c\u0649 \u062c\u064a \u062e\u0649 \u062e\u064a \u0635\u0649"),
  (0xfd22, "\u0635\u064a \u0636\u0649 \u0636\u064a \u0634\u062c \u0634\u062d \u0634\u062e"),
  (0xfd28, "\u0634\u0645 \u0634\u0631 \u0633\u0631 \u0635\u0631 \u0636\u0631 \u0634\u062c"),
  (0xfd2e, "\u0634\u062d \u0634\u062e \u0634\u0645 \u0633\u0647 \u0634\u0647 \u0637\u0645"),
  (0xfd34, "\u0633\u062c \u0633\u062d \u0633\u062e \u0634\u062c \u0634\u062d \u0634\u062e"),
  (0xfd3a, "\u0637\u0645 \u0638\u0645 \u0627\u064b \u0627\u064b"),
  (0xfd50, "\u062a\u062c\u0645 \u062a\u062d\u062c \u062a\u062d\u062c \u062a\u062d\u0645"),
  (0xfd54, "\u062a\u062e\u0645 \u062a\u0645\u062c \u062a\u0645\u062d \u062a\u0645\u062e"),
  (0xfd58, "\u062c\u0645\u062d \u062c\u0645\u062d \u062d\u0645\u064a \u062d\u0645\u0649"),
  (0xfd5c, "\u0633\u062d\u062c \u0633\u062c\u062d \u0633\u062c\u0649 \u0633\u0645\u062d"),
  (0xfd60, "\u0633\u0645\u062d \u0633\u0645\u062c \u0633\u0645\u0645 \u0633\u0645\u0645"),
  (0xfd64, "\u0635\u062d\u062d \u0635\u062d\u062d \u0635\u0645\u0645 \u0634\u062d\u0645"),
  (0xfd68, "\u0634\u062d\u0645 \u0634\u062c\u064a \u0634\u0645\u062e \u0634\u0645\u062e"),
  (0xfd6c, "\u0634\u0645\u0645 \u0634\u0645\u0645 \u0636\u062d\u0649 \u0636\u062e\u0645"),
  (0xfd70, "\u0636\u062e\u0645 \u0637\u0645\u062d \u0637\u0645\u062d \u0637\u0645\u0645"),
  (0xfd74, "\u0637\u0645\u064a \u0639\u062c\u0645 \u0639\u0645\u0645 \u0639\u0645\u0645"),
  (0xfd78, "\u0639\u0645\u0649 \u063a\u0645\u0645 \u063a\u0645\u064a \u063a\u0645\u0649"),
  (0xfd7c, "\u0641\u062e\u0645 \u0641\u062e\u0645 \u0642\u0645\u062d \u0642\u0645\u0645"),
  (0xfd80, "\u0644\u062d\u0645 \u0644\u062d\u064a \u0644\u062d\u0649 \u0644\u062c\u062c"),
  (0xfd84, "\u0644\u062c\u062c \u0644\u062e\u0645 \u0644\u062e\u0645 \u0644\u0645\u062d"),
  (0xfd88, "\u0644\u0645\u062d \u0645\u062d\u062c \u0645\u062d\u0645 \u0645\u062d\u064a"),
  (0xfd8c, "\u0645\u062c\u062d \u0645\u062c\u0645 \u0645\u062e\u062c \u0645\u062e\u0645"),
  (0xfd92, "\u0645\u062c\u062e \u0647\u0645\u062c \u0647\u0645\u0645 \u0646\u062d\u0645"),
  (0xfd96, "\u0646\u062d\u0649 \u0646\u062c\u0645 \u0646\u062c\u0645 \u0646\u062c\u0649"),
  (0xfd9a, "\u0646\u0645\u064a \u0646\u0645\u0649 \u064a\u0645\u0645 \u064a\u0645\u0645"),
  (0xfd9e, "\u0628\u062e\u064a \u062a\u062c\u064a \u062a\u062c\u0649 \u062a\u062e\u064a"),
  (0xfda2, "\u062a\u062e\u0649 \u062a\u0645\u064a \u062a\u0645\u0649 \u062c\u0645\u064a"),
  (0xfda6, "\u062c\u062d\u0649 \u062c\u0645\u0649 \u0633\u062e\u0649 \u0635\u062d\u064a"),
  (0xfdaa, "\u0634\u062d\u064a \u0636\u062d\u064a \u0644\u062c\u064a \u0644\u0645\u064a"),
  (0xfdae, "\u064a\u062d\u064a \u064a\u062c\u064a \u064a\u0645\u064a \u0645\u0645\u064a"),
  (0xfdb2, "\u0642\u0645\u064a \u0646\u062d\u064a \u0642\u0645\u062d \u0644\u062d\u0645"),
  (0xfdb6, "\u0639\u0645\u064a \u0643\u0645\u064a \u0646\u062c\u062d \u0645\u062e\u064a"),
  (0xfdba, "\u0644\u062c\u0645 \u0643\u0645\u0645 \u0644\u062c\u0645 \u0646\u062c\u062d"),
  (0xfdbe, "\u062c\u062d\u064a \u062d\u062c\u064a \u0645\u062c\u064a \u0641\u0645\u064a"),
  (0xfdc2, "\u0628\u062d\u064a \u0643\u0645\u0645 \u0639\u062c\u0645 \u0635\u0645\u0645"),
  (0xfdc6, "\u0633\u062e\u064a \u0646\u062c\u064a"),
  (0xfdf0, "\u0635\u0644\u06d2 \u0642\u0644\u06d2 \u0627\u0644\u0644\u0647"),
  (0xfdf3, "\u0627\u0643\u0628\u0631 \u0645\u062d\u0645\u062f \u0635\u0644\u0639\u0645"),
  (0xfdf6, "\u0631\u0633\u0648\u0644 \u0639\u0644\u064a\u0647 \u0648\u0633\u0644\u0645"),
  (0xfdf9, "\u0635\u0644\u0649"), (0xfdfc, "\u0631\u06cc\u0627\u0644"), (0xfe10, ", 、"),
  (0xfe14, "; !"), (0xfe17, "〖 〗"), (0xfe31, "— – _ _ ( ) \x7b \x7d 〔 〕 【 】 《 》 〈 〉"),
  (0xfe4d, "_ _ _ , 、"), (0xfe54, ";"), (0xfe57, "! — ( ) \x7b \x7d 〔 〕"), (0xfe60, "& * + -"),
  (0xfe66, "="), (0xfe69, "$"), (0xfe71, "\u0640\u064b"), (0xfe77, "\u0640\u064e"),
  (0xfe79, "\u0640\u064f"), (0xfe7b, "\u0640\u0650"), (0xfe7d, "\u0640\u0651"),
  (0xfe7f, "\u0640\u0652 \u0621 \u0622 \u0622 \u0623 \u0623 \u0624 \u0624 \u0625 \u0625 \u0626"),
  (0xfe8a, "\u0626 \u0626 \u0626 \u0627 \u0627 \u0628 \u0628 \u0628 \u0628 \u0629 \u0629 \u062a"),
  (0xfe96, "\u062a \u062a \u062a \u062b \u062b \u062b \u062b \u062c \u062c \u062c \u062c \u062d"),
  (0xfea2, "\u062d \u062d \u062d \u062e \u062e \u062e \u062e \u062f \u062f \u0630 \u0630 \u0631"),
  (0xfeae, "\u0631 \u0632 \u0632 \u0633 \u0633 \u0633 \u0633 \u0634 \u0634 \u0634 \u0634 \u0635"),
  (0xfeba, "\u0635 \u0635 \u0635 \u0636 \u0636 \u0636 \u0636 \u0637 \u0637 \u0637 \u0637 \u0638"),
  (0xfec6, "\u0638 \u0638 \u0638 \u0639 \u0639 \u0639 \u0639 \u063a \u063a \u063a \u063a \u0641"),
  (0xfed2, "\u0641 \u0641 \u0641 \u0642 \u0642 \u0642 \u0642 \u0643 \u0643 \u0643 \u0643 \u0644"),
  (0xfede, "\u0644 \u0644 \u0644 \u0645 \u0645 \u0645 \u0645 \u0646 \u0646 \u0646 \u0646 \u0647"),
  (0xfeea, "\u0647 \u0647 \u0647 \u0648 \u0648 \u0649 \u0649 \u064a \u064a \u064a \u064a"),
  (0xfef5, "\u0644\u0622 \u0644\u0622 \u0644\u0623 \u0644\u0623 \u0644\u0625 \u0644\u0625"),
  (0xfefb, "\u0644\u0627 \u0644\u0627"), (0xff01, "!"),
  (0xff5d, "\x7d ~ ⦅ ⦆ . 「 」 、 ・ ヲ ァ ィ ゥ ェ ォ ャ ュ ョ ッ ー ア イ ウ エ オ カ キ ク ケ コ サ シ ス セ ソ タ チ ツ テ ト"),
  (0xff8b, "ヒ フ ヘ ホ"), (0xff94, "ヤ ユ"), (0xff9c, "ワ ン \u3099 \u309a"),
  (0xffa1, "\u1100 \u1101 \u11aa \u1102 \u11ac \u11ad \u1103 \u1104 \u1105"),
  (0xffb0, "\u111a \u1106 \u1107 \u1108 \u1121"), (0xffda, "\u1173 \u1174 \u1175"),
  (0xffe0, "¢ £ ¬"), (0xffe4, "¦ ¥ ₩"), (0xffe8, "│"), (0xffed, "■ ○"), (0x1058d, "𐖴"),
  (0x1058f, "𐖶"), (0x10591, "𐖸"), (0x10595, "𐖼"), (0x10781, "ː ˑ æ ʙ ɓ"),
  (0x10787, "ʣ ꭦ ʥ ʤ ɖ ɗ ᶑ ɘ ɞ ʩ ɤ ɢ ɠ ʛ ħ ʜ ɧ ʄ ʪ ʫ ɬ 𝼄 ꞎ ɮ 𝼅 ʎ 𝼆 ø ɶ ɷ q ɺ 𝼈 ɽ ɾ ʀ ʨ ʦ ꭧ ʧ ʈ ⱱ"),
  (0x107b2, "ʏ ʡ ʢ ʘ ǀ ǁ ǂ 𝼊 𝼞"), (0x1d44f, "b"), (0x1d451, "d"), (0x1d453, "f"), (0x1d49c, "a"),
  (0x1d49e, "c d"), (0x1d4a2, "g"), (0x1d4a5, "j k"), (0x1d4be, "i"), (0x1d4c0, "k"),
  (0x1d4c2, "m"), (0x1d504, "a b"), (0x1d538, "a b"), (0x1d546, "o"), (0x1d6a4, "ı ȷ"),
  (0x1d6b9, "θ"), (0x1d6c1, "∇"), (0x1d6d3, "σ"), (0x1d6db, "∂ ε θ κ φ ρ π"), (0x1d6f3, "θ"),
  (0x1d6fb, "∇"), (0x1d70d, "σ"), (0x1d715, "∂ ε θ κ φ ρ π"), (0x1d72d, "θ"), (0x1d735, "∇"),
  (0x1d747, "σ"), (0x1d74f, "∂ ε θ κ φ ρ π"), (0x1d767, "θ"), (0x1d76f, "∇"), (0x1d781, "σ"),
  (0x1d789, "∂ ε θ κ φ ρ π"), (0x1d7a1, "θ"), (0x1d7a9, "∇"), (0x1d7bb, "σ"),
  (0x1d7c3, "∂ ε θ κ φ ρ π ϝ ϝ"), (0x1e039, "к л м"), (0x1e047, "ы э ю ꚉ ә і ј ө ү ӏ"),
  (0x1e05a, "к л о п с"), (0x1e065, "ъ ы ґ і ѕ џ ҫ ꙑ ұ"), (0x1ee00, "\u0627 \u0628 \u062c \u062f"),
  (0x1ee05, "\u0648 \u0632 \u062d \u0637 \u064a"),
  (0x1ee0e, "\u0633 \u0639 \u0641 \u0635 \u0642 \u0631 \u0634 \u062a \u062b \u062e \u0630 \u0636"),
  (0x1ee1a, "\u0638 \u063a \u066e \u06ba \u06a1 \u066f"), (0x1ee21, "\u0628 \u062c"),
  (0x1ee24, "\u0647"), (0x1ee27, "\u062d"), (0x1ee29, "\u064a"),
  (0x1ee2e, "\u0633 \u0639 \u0641 \u0635 \u0642"), (0x1ee34, "\u0634 \u062a \u062b \u062e"),
  (0x1ee39, "\u0636"), (0x1ee3b, "\u063a"), (0x1ee42, "\u062c"), (0x1ee47, "\u062d"),
  (0x1ee49, "\u064a"), (0x1ee4b, "\u0644"), (0x1ee4d, "\u0646 \u0633 \u0639"),
  (0x1ee51, "\u0635 \u0642"), (0x1ee54, "\u0634"), (0x1ee57, "\u062e"), (0x1ee59, "\u0636"),
  (0x1ee5b, "\u063a"), (0x1ee5d, "\u06ba"), (0x1ee5f, "\u066f"), (0x1ee61, "\u0628 \u062c"),
  (0x1ee64, "\u0647"), (0x1ee67, "\u062d \u0637 \u064a \u0643"),
  (0x1ee6c, "\u0645 \u0646 \u0633 \u0639 \u0641 \u0635 \u0642"),
  (0x1ee74, "\u0634 \u062a \u062b \u062e"), (0x1ee79, "\u0636 \u0638 \u063a \u066e"),
  (0x1ee7e, "\u06a1"),
  (0x1ee80, "\u0627 \u0628 \u062c \u062f \u0647 \u0648 \u0632 \u062d \u0637 \u064a"),
  (0x1ee8b, "\u0644 \u0645 \u0646 \u0633 \u0639 \u0641 \u0635 \u0642 \u0631 \u0634 \u062a \u062b"),
  (0x1ee97, "\u062e \u0630 \u0636 \u0638 \u063a"), (0x1eea1, "\u0628 \u062c \u062f"),
  (0x1eea5, "\u0648 \u0632 \u062d \u0637 \u064a"),
  (0x1eeab, "\u0644 \u0645 \u0646 \u0633 \u0639 \u0641 \u0635 \u0642 \u0631 \u0634 \u062a \u062b"),
  (0x1eeb7, "\u062e \u0630 \u0636 \u0638 \u063a"), (0x1f101, "0, 1, 2, 3, 4, 5, 6, 7, 8, 9,"),
  (0x1f110, "(a) (b) (c) (d) (e) (f) (g) (h) (i) (j) (k) (l) (m) (n) (o) (p) (q) (r) (s) (t) (u)"),
  (0x1f125, "(v) (w) (x) (y) (z) 〔s〕 c r cd wz"), (0x1f14a, "hv mv sd ss ppv wc"),
  (0x1f16a, "mc md mr"), (0x1f190, "dj"), (0x1f200, "ほか ココ サ"),
  (0x1f210, "手 字 双 デ 二 多 解 天 交 映 無 料 前 後 再 新 初 終 生 販 声 吹 演 投 捕 一 三 遊 左 中 右 指 走 打 禁 空 合 満 有 月 申 割"),
  (0x1f23a, "営 配"), (0x1f240, "〔本〕 〔三〕 〔二〕 〔安〕 〔点〕 〔打〕 〔盗〕 〔勝〕 〔敗〕"), (0x1f250, "得 可")]

def forms : List (Nat × List (List Char)) :=
  Text.Spelling.read (formsFromAA ++ formsFromFBDE)

/-- Characters that leave no trace. -/
def ignored : List (Nat × Nat) := [
  (0xad, 0xad), (0x34f, 0x34f), (0x115f, 0x1160), (0x17b4, 0x17b5), (0x180b, 0x180f),
  (0x200b, 0x200b), (0x2060, 0x2064), (0x206a, 0x206f), (0x3164, 0x3164), (0xfe00, 0xfe0f),
  (0xfeff, 0xfeff), (0xffa0, 0xffa0), (0x1bca0, 0x1bca3), (0x1d173, 0x1d17a), (0xe0100, 0xe01ef)]

/-- Characters that count as a point among others or as something that no name holds,
and a few signs that no name holds themselves. -/
def refused : List (Nat × Nat) := [
  (0xa0, 0xa0), (0xa8, 0xa8), (0xaf, 0xaf), (0xb4, 0xb4), (0xb8, 0xb8), (0x2d8, 0x2dd),
  (0x37a, 0x37a), (0x384, 0x385), (0x1fbd, 0x1fbd), (0x1fbf, 0x1fc1), (0x1fcd, 0x1fcf),
  (0x1fdd, 0x1fdf), (0x1fed, 0x1fee), (0x1ffd, 0x1ffe), (0x2000, 0x200a), (0x2017, 0x2017),
  (0x2024, 0x2026), (0x202f, 0x202f), (0x203e, 0x203e), (0x2047, 0x2049), (0x205f, 0x205f),
  (0x2100, 0x2101), (0x2105, 0x2106), (0x2488, 0x249b), (0x2a74, 0x2a74), (0x2ff0, 0x3000),
  (0x309b, 0x309c), (0x31ef, 0x31ef), (0x33c2, 0x33c2), (0x33c7, 0x33c7), (0x33d8, 0x33d8),
  (0xfc5e, 0xfc63), (0xfdfa, 0xfdfb), (0xfe12, 0xfe13), (0xfe16, 0xfe16), (0xfe19, 0xfe19),
  (0xfe30, 0xfe30), (0xfe47, 0xfe4c), (0xfe52, 0xfe52), (0xfe55, 0xfe56), (0xfe5f, 0xfe5f),
  (0xfe64, 0xfe65), (0xfe68, 0xfe68), (0xfe6a, 0xfe6b), (0xfe70, 0xfe70), (0xfe72, 0xfe72),
  (0xfe74, 0xfe74), (0xfe76, 0xfe76), (0xfe78, 0xfe78), (0xfe7a, 0xfe7a), (0xfe7c, 0xfe7c),
  (0xfe7e, 0xfe7e), (0xff03, 0xff03), (0xff05, 0xff05), (0xff0f, 0xff0f), (0xff1a, 0xff1a),
  (0xff1c, 0xff1c), (0xff1e, 0xff20), (0xff3b, 0xff3e), (0xff5c, 0xff5c), (0xffe3, 0xffe3),
  (0xfffc, 0xfffd), (0x1f100, 0x1f100)]

end PayFormula.Uri.Folding

import PayFormula.Text.Character

/-!
# Composed characters

The characters of Unicode 17.0, Hangul syllables apart, that stand for a character
and a mark after it, and those that stand for other characters altogether.
-/
namespace PayFormula.Text.Composition

/-- A character and the two that it stands for. -/
structure Composite where
  first : Char
  second : Char
  whole : Char
  deriving DecidableEq, Repr, Inhabited

/-- For second characters up to U+0328 pairs of the first character and the whole. -/
def pairsFrom300 : List (Nat × String) := [
  (0x300, "AÀ EÈ IÌ OÒ UÙ aà eè iì oò uù ÜǛ üǜ NǸ nǹ ЕЀ ИЍ еѐ иѝ ĒḔ ēḕ ŌṐ ōṑ WẀ wẁ ÂẦ âầ ĂẰ ăằ"),
  (0x300, "ÊỀ êề ÔỒ ôồ ƠỜ ơờ ƯỪ ưừ YỲ yỳ ἀἂ ἁἃ ἈἊ ἉἋ ἐἒ ἑἓ ἘἚ ἙἛ ἠἢ ἡἣ ἨἪ ἩἫ ἰἲ ἱἳ ἸἺ ἹἻ ὀὂ ὁὃ"),
  (0x300, "ὈὊ ὉὋ ὐὒ ὑὓ ὙὛ ὠὢ ὡὣ ὨὪ ὩὫ αὰ εὲ ηὴ ιὶ οὸ υὺ ωὼ ΑᾺ ΕῈ ΗῊ ᾿῍ ϊῒ ΙῚ ῾῝ ϋῢ ΥῪ ¨῭ ΟῸ ΩῺ"),
  (0x301, "AÁ EÉ IÍ OÓ UÚ YÝ aá eé ií oó uú yý CĆ cć LĹ lĺ NŃ nń RŔ rŕ SŚ sś ZŹ zź ÜǗ üǘ GǴ gǵ"),
  (0x301, "ÅǺ åǻ ÆǼ æǽ ØǾ øǿ ¨΅ ΑΆ ΕΈ ΗΉ ΙΊ ΟΌ ΥΎ ΩΏ ϊΐ αά εέ ηή ιί ϋΰ οό υύ ωώ ϒϓ ГЃ КЌ гѓ кќ"),
  (0x301, "ÇḈ çḉ ĒḖ ēḗ ÏḮ ïḯ KḰ kḱ MḾ mḿ ÕṌ õṍ ŌṒ ōṓ PṔ pṕ ŨṸ ũṹ WẂ wẃ ÂẤ âấ ĂẮ ăắ ÊẾ êế ÔỐ ôố"),
  (0x301, "ƠỚ ơớ ƯỨ ưứ ἀἄ ἁἅ ἈἌ ἉἍ ἐἔ ἑἕ ἘἜ ἙἝ ἠἤ ἡἥ ἨἬ ἩἭ ἰἴ ἱἵ ἸἼ ἹἽ ὀὄ ὁὅ ὈὌ ὉὍ ὐὔ ὑὕ ὙὝ ὠὤ"),
  (0x301, "ὡὥ ὨὬ ὩὭ ᾿῎ ῾῞"),
  (0x302, "AÂ EÊ IÎ OÔ UÛ aâ eê iî oô uû CĈ cĉ GĜ gĝ HĤ hĥ JĴ jĵ SŜ sŝ WŴ wŵ YŶ yŷ ZẐ zẑ ẠẬ ạậ"),
  (0x302, "ẸỆ ẹệ ỌỘ ọộ"),
  (0x303, "AÃ NÑ OÕ aã nñ oõ IĨ iĩ UŨ uũ VṼ vṽ ÂẪ âẫ ĂẴ ăẵ EẼ eẽ ÊỄ êễ ÔỖ ôỗ ƠỠ ơỡ ƯỮ ưữ YỸ yỹ"),
  (0x304, "AĀ aā EĒ eē IĪ iī OŌ oō UŪ uū ÜǕ üǖ ÄǞ äǟ ȦǠ ȧǡ ÆǢ æǣ ǪǬ ǫǭ ÖȪ öȫ ÕȬ õȭ ȮȰ ȯȱ YȲ yȳ"),
  (0x304, "ИӢ иӣ УӮ уӯ GḠ gḡ ḶḸ ḷḹ ṚṜ ṛṝ αᾱ ΑᾹ ιῑ ΙῙ υῡ ΥῩ"),
  (0x306, "AĂ aă EĔ eĕ GĞ gğ IĬ iĭ OŎ oŏ UŬ uŭ УЎ ИЙ ий уў ЖӁ жӂ АӐ аӑ ЕӖ еӗ ȨḜ ȩḝ ẠẶ ạặ αᾰ ΑᾸ"),
  (0x306, "ιῐ ΙῘ υῠ ΥῨ"),
  (0x307, "CĊ cċ EĖ eė GĠ gġ Iİ ZŻ zż AȦ aȧ OȮ oȯ BḂ bḃ DḊ dḋ FḞ fḟ HḢ hḣ MṀ mṁ NṄ nṅ PṖ pṗ RṘ"),
  (0x307, "rṙ SṠ sṡ ŚṤ śṥ ŠṦ šṧ ṢṨ ṣṩ TṪ tṫ WẆ wẇ XẊ xẋ YẎ yẏ ſẛ"),
  (0x308, "AÄ EË IÏ OÖ UÜ aä eë iï oö uü yÿ YŸ ΙΪ ΥΫ ιϊ υϋ ϒϔ ЕЁ ІЇ её ії АӒ аӓ ӘӚ әӛ ЖӜ жӝ ЗӞ"),
  (0x308, "зӟ ИӤ иӥ ОӦ оӧ ӨӪ өӫ ЭӬ эӭ УӰ уӱ ЧӴ чӵ ЫӸ ыӹ HḦ hḧ ÕṎ õṏ ŪṺ ūṻ WẄ wẅ XẌ xẍ tẗ"),
  (0x309, "AẢ aả ÂẨ âẩ ĂẲ ăẳ EẺ eẻ ÊỂ êể IỈ iỉ OỎ oỏ ÔỔ ôổ ƠỞ ơở UỦ uủ ƯỬ ưử YỶ yỷ"),
  (0x30a, "AÅ aå UŮ uů wẘ yẙ"), (0x30b, "OŐ oő UŰ uű УӲ уӳ"),
  (0x30c, "CČ cč DĎ dď EĚ eě LĽ lľ NŇ nň RŘ rř SŠ sš TŤ tť ZŽ zž AǍ aǎ IǏ iǐ OǑ oǒ UǓ uǔ ÜǙ üǚ"),
  (0x30c, "GǦ gǧ KǨ kǩ ƷǮ ʒǯ jǰ HȞ hȟ"), (0x30f, "AȀ aȁ EȄ eȅ IȈ iȉ OȌ oȍ RȐ rȑ UȔ uȕ ѴѶ ѵѷ"),
  (0x311, "AȂ aȃ EȆ eȇ IȊ iȋ OȎ oȏ RȒ rȓ UȖ uȗ"),
  (0x313, "αἀ ΑἈ εἐ ΕἘ ηἠ ΗἨ ιἰ ΙἸ οὀ ΟὈ υὐ ωὠ ΩὨ ρῤ"),
  (0x314, "αἁ ΑἉ εἑ ΕἙ ηἡ ΗἩ ιἱ ΙἹ οὁ ΟὉ υὑ ΥὙ ωὡ ΩὩ ρῥ ΡῬ"), (0x31b, "OƠ oơ UƯ uư"),
  (0x323, "BḄ bḅ DḌ dḍ HḤ hḥ KḲ kḳ LḶ lḷ MṂ mṃ NṆ nṇ RṚ rṛ SṢ sṣ TṬ tṭ VṾ vṿ WẈ wẉ ZẒ zẓ AẠ aạ"),
  (0x323, "EẸ eẹ IỊ iị OỌ oọ ƠỢ ơợ UỤ uụ ƯỰ ưự YỴ yỵ"), (0x324, "UṲ uṳ"), (0x325, "AḀ aḁ"),
  (0x326, "SȘ sș TȚ tț"),
  (0x327, "CÇ cç GĢ gģ KĶ kķ LĻ lļ NŅ nņ RŖ rŗ SŞ sş TŢ tţ EȨ eȩ DḐ dḑ HḨ hḩ"),
  (0x328, "AĄ aą EĘ eę IĮ iį UŲ uų OǪ oǫ")]

/-- For second characters from U+032D on pairs of the first character and the whole. -/
def pairsFrom32D : List (Nat × String) := [
  (0x32d, "DḒ dḓ EḘ eḙ LḼ lḽ NṊ nṋ TṰ tṱ UṶ uṷ"), (0x32e, "HḪ hḫ"), (0x330, "EḚ eḛ IḬ iḭ UṴ uṵ"),
  (0x331, "BḆ bḇ DḎ dḏ KḴ kḵ LḺ lḻ NṈ nṉ RṞ rṟ TṮ tṯ ZẔ zẕ hẖ"),
  (0x338, "←↚ →↛ ↔↮ ⇐⇍ ⇔⇎ ⇒⇏ ∃∄ ∈∉ ∋∌ ∣∤ ∥∦ ∼≁ ≃≄ ≅≇ ≈≉ =≠ ≡≢ ≍≭ <≮ >≯ ≤≰ ≥≱ ≲≴ ≳≵ ≶≸ ≷≹ ≺⊀ ≻⊁"),
  (0x338, "⊂⊄ ⊃⊅ ⊆⊈ ⊇⊉ ⊢⊬ ⊨⊭ ⊩⊮ ⊫⊯ ≼⋠ ≽⋡ ⊑⋢ ⊒⋣ ⊲⋪ ⊳⋫ ⊴⋬ ⊵⋭"),
  (0x342, "ἀἆ ἁἇ ἈἎ ἉἏ ἠἦ ἡἧ ἨἮ ἩἯ ἰἶ ἱἷ ἸἾ ἹἿ ὐὖ ὑὗ ὙὟ ὠὦ ὡὧ ὨὮ ὩὯ αᾶ ¨῁ ηῆ ᾿῏ ιῖ ϊῗ ῾῟ υῦ ϋῧ"),
  (0x342, "ωῶ"),
  (0x345, "ἀᾀ ἁᾁ ἂᾂ ἃᾃ ἄᾄ ἅᾅ ἆᾆ ἇᾇ Ἀᾈ Ἁᾉ Ἂᾊ Ἃᾋ Ἄᾌ Ἅᾍ Ἆᾎ Ἇᾏ ἠᾐ ἡᾑ ἢᾒ ἣᾓ ἤᾔ ἥᾕ ἦᾖ ἧᾗ Ἠᾘ Ἡᾙ Ἢᾚ Ἣᾛ"),
  (0x345, "Ἤᾜ Ἥᾝ Ἦᾞ Ἧᾟ ὠᾠ ὡᾡ ὢᾢ ὣᾣ ὤᾤ ὥᾥ ὦᾦ ὧᾧ Ὠᾨ Ὡᾩ Ὢᾪ Ὣᾫ Ὤᾬ Ὥᾭ Ὦᾮ Ὧᾯ ὰᾲ αᾳ άᾴ ᾶᾷ Αᾼ ὴῂ ηῃ ήῄ"),
  (0x345, "ῆῇ Ηῌ ὼῲ ωῳ ώῴ ῶῷ Ωῼ"), (0x653, "\u0627\u0622"),
  (0x654, "\u0627\u0623 \u0648\u0624 \u064a\u0626 \u06d5\u06c0 \u06c1\u06c2 \u06d2\u06d3"),
  (0x655, "\u0627\u0625"), (0x93c, "नऩ रऱ ळऴ"), (0x9be, "\u09c7\u09cb"), (0x9d7, "\u09c7\u09cc"),
  (0xb3e, "\u0b47\u0b4b"), (0xb56, "\u0b47\u0b48"), (0xb57, "\u0b47\u0b4c"),
  (0xbbe, "\u0bc6\u0bca \u0bc7\u0bcb"), (0xbd7, "ஒஔ \u0bc6\u0bcc"), (0xc56, "\u0c46\u0c48"),
  (0xcc2, "\u0cc6\u0cca"), (0xcd5, "\u0cbf\u0cc0 \u0cc6\u0cc7 \u0cca\u0ccb"),
  (0xcd6, "\u0cc6\u0cc8"), (0xd3e, "\u0d46\u0d4a \u0d47\u0d4b"), (0xd57, "\u0d46\u0d4c"),
  (0xdca, "\u0dd9\u0dda \u0ddc\u0ddd"), (0xdcf, "\u0dd9\u0ddc"), (0xddf, "\u0dd9\u0dde"),
  (0x102e, "ဥဦ"),
  (0x1b35, "ᬅᬆ ᬇᬈ ᬉᬊ ᬋᬌ ᬍᬎ ᬑᬒ \u1b3a\u1b3b \u1b3c\u1b3d \u1b3e\u1b40 \u1b3f\u1b41 \u1b42\u1b43"),
  (0x3099, "かが きぎ くぐ けげ こご さざ しじ すず せぜ そぞ ただ ちぢ つづ てで とど はば ひび ふぶ へべ ほぼ うゔ ゝゞ カガ キギ クグ ケゲ コゴ サザ"),
  (0x3099, "シジ スズ セゼ ソゾ タダ チヂ ツヅ テデ トド ハバ ヒビ フブ ヘベ ホボ ウヴ ワヷ ヰヸ ヱヹ ヲヺ ヽヾ"),
  (0x309a, "はぱ ひぴ ふぷ へぺ ほぽ ハパ ヒピ フプ ヘペ ホポ")]

/-- Wholes beyond the first plane of Unicode, each with its first and second character. -/
def pairsBeyond : List (Nat × Nat × Nat) := [
  (0x105c9, 0x105d2, 0x307), (0x105e4, 0x105da, 0x307), (0x1109a, 0x11099, 0x110ba),
  (0x1109c, 0x1109b, 0x110ba), (0x110ab, 0x110a5, 0x110ba), (0x1112e, 0x11131, 0x11127),
  (0x1112f, 0x11132, 0x11127), (0x1134b, 0x11347, 0x1133e), (0x1134c, 0x11347, 0x11357),
  (0x11383, 0x11382, 0x113c9), (0x11385, 0x11384, 0x113bb), (0x1138e, 0x1138b, 0x113c2),
  (0x11391, 0x11390, 0x113c9), (0x113c5, 0x113c2, 0x113c2), (0x113c7, 0x113c2, 0x113b8),
  (0x113c8, 0x113c2, 0x113c9), (0x114bb, 0x114b9, 0x114ba), (0x114bc, 0x114b9, 0x114b0),
  (0x114be, 0x114b9, 0x114bd), (0x115ba, 0x115b8, 0x115af), (0x115bb, 0x115b9, 0x115af),
  (0x11938, 0x11935, 0x11930), (0x16121, 0x1611e, 0x1611e), (0x16122, 0x1611e, 0x16129),
  (0x16123, 0x1611e, 0x1611f), (0x16124, 0x16129, 0x1611f), (0x16125, 0x1611e, 0x16120),
  (0x16126, 0x16121, 0x1611f), (0x16127, 0x16122, 0x1611f), (0x16128, 0x16121, 0x16120),
  (0x16d68, 0x16d67, 0x16d67), (0x16d69, 0x16d63, 0x16d67), (0x16d6a, 0x16d69, 0x16d67)]

/-- The composites of a second character. -/
def compositesOf (row : Nat × String) : List Composite :=
  (pieces (· = ' ') row.2.toList).filterMap fun
    | [first, whole] => some ⟨first, Char.ofNat row.1, whole⟩
    | _ => none

def composites : List Composite :=
  (pairsFrom300 ++ pairsFrom32D).flatMap compositesOf ++
    pairsBeyond.map fun (whole, first, second) =>
      ⟨Char.ofNat first, Char.ofNat second, Char.ofNat whole⟩

/-- What consecutive characters, of which the first is given, stand for. -/
def replacementRows : List (Nat × String) := [
  (0x340, "\u0300 \u0301"), (0x343, "\u0313 \u0308\u0301"), (0x374, "ʹ"), (0x37e, ";"),
  (0x387, "·"), (0x958, "क\u093c ख\u093c ग\u093c ज\u093c ड\u093c ढ\u093c फ\u093c य\u093c"),
  (0x9dc, "ড\u09bc ঢ\u09bc"), (0x9df, "য\u09bc"), (0xa33, "ਲ\u0a3c"), (0xa36, "ਸ\u0a3c"),
  (0xa59, "ਖ\u0a3c ਗ\u0a3c ਜ\u0a3c"), (0xa5e, "ਫ\u0a3c"), (0xb5c, "ଡ\u0b3c ଢ\u0b3c"),
  (0xf43, "ག\u0fb7"), (0xf4d, "ཌ\u0fb7"), (0xf52, "ད\u0fb7"), (0xf57, "བ\u0fb7"),
  (0xf5c, "ཛ\u0fb7"), (0xf69, "ཀ\u0fb5"), (0xf73, "\u0f71\u0f72"),
  (0xf75, "\u0f71\u0f74 \u0fb2\u0f80"), (0xf78, "\u0fb3\u0f80"), (0xf81, "\u0f71\u0f80"),
  (0xf93, "\u0f92\u0fb7"), (0xf9d, "\u0f9c\u0fb7"), (0xfa2, "\u0fa1\u0fb7"),
  (0xfa7, "\u0fa6\u0fb7"), (0xfac, "\u0fab\u0fb7"), (0xfb9, "\u0f90\u0fb5"), (0x1f71, "ά"),
  (0x1f73, "έ"), (0x1f75, "ή"), (0x1f77, "ί"), (0x1f79, "ό"), (0x1f7b, "ύ"), (0x1f7d, "ώ"),
  (0x1fbb, "Ά"), (0x1fbe, "ι"), (0x1fc9, "Έ"), (0x1fcb, "Ή"), (0x1fd3, "ΐ"), (0x1fdb, "Ί"),
  (0x1fe3, "ΰ"), (0x1feb, "Ύ"), (0x1fee, "΅ \x60"), (0x1ff9, "Ό"), (0x1ffb, "Ώ"), (0x1ffd, "´"),
  (0x2000, "\u2002 \u2003"), (0x2126, "Ω"), (0x212a, "K Å"), (0x2329, "〈 〉"), (0x2adc, "⫝\u0338"),
  (0xf900, "豈 更 車 賈 滑 串 句 龜 龜 契 金 喇 奈 懶 癩 羅 蘿 螺 裸 邏 樂 洛 烙 珞 落 酪 駱 亂 卵 欄 爛 蘭 鸞 嵐 濫 藍 襤 拉 臘 蠟 廊 朗"),
  (0xf92a, "浪 狼 郎 來 冷 勞 擄 櫓 爐 盧 老 蘆 虜 路 露 魯 鷺 碌 祿 綠 菉 錄 鹿 論 壟 弄 籠 聾 牢 磊 賂 雷 壘 屢 樓 淚 漏 累 縷 陋 勒 肋"),
  (0xf954, "凜 凌 稜 綾 菱 陵 讀 拏 樂 諾 丹 寧 怒 率 異 北 磻 便 復 不 泌 數 索 參 塞 省 葉 說 殺 辰 沈 拾 若 掠 略 亮 兩 凉 梁 糧 良 諒"),
  (0xf97e, "量 勵 呂 女 廬 旅 濾 礪 閭 驪 麗 黎 力 曆 歷 轢 年 憐 戀 撚 漣 煉 璉 秊 練 聯 輦 蓮 連 鍊 列 劣 咽 烈 裂 說 廉 念 捻 殮 簾 獵"),
  (0xf9a8, "令 囹 寧 嶺 怜 玲 瑩 羚 聆 鈴 零 靈 領 例 禮 醴 隸 惡 了 僚 寮 尿 料 樂 燎 療 蓼 遼 龍 暈 阮 劉 杻 柳 流 溜 琉 留 硫 紐 類 六"),
  (0xf9d2, "戮 陸 倫 崙 淪 輪 律 慄 栗 率 隆 利 吏 履 易 李 梨 泥 理 痢 罹 裏 裡 里 離 匿 溺 吝 燐 璘 藺 隣 鱗 麟 林 淋 臨 立 笠 粒 狀 炙"),
  (0xf9fc, "識 什 茶 刺 切 度 拓 糖 宅 洞 暴 輻 行 降 見 廓 兀 嗀"), (0xfa10, "塚"), (0xfa12, "晴"),
  (0xfa15, "凞 猪 益 礼 神 祥 福 靖 精 羽"), (0xfa20, "蘒"), (0xfa22, "諸"), (0xfa25, "逸 都"),
  (0xfa2a, "飯 飼 館 鶴 郞 隷 侮 僧 免 勉 勤 卑 喝 嘆 器 塀 墨 層 屮 悔 慨 憎 懲 敏 既 暑 梅 海 渚 漢 煮 爫 琢 碑 社 祉 祈 祐 祖 祝 禍 禎"),
  (0xfa54, "穀 突 節 練 縉 繁 署 者 臭 艹 艹 著 褐 視 謁 謹 賓 贈 辶 逸 難 響 頻 恵 𤋮 舘"),
  (0xfa70, "並 况 全 侀 充 冀 勇 勺 喝 啕 喙 嗢 塚 墳 奄 奔 婢 嬨 廒 廙 彩 徭 惘 慎 愈 憎 慠 懲 戴 揄 搜 摒 敖 晴 朗 望 杖 歹 殺 流 滛 滋"),
  (0xfa9a, "漢 瀞 煮 瞧 爵 犯 猪 瑱 甆 画 瘝 瘟 益 盛 直 睊 着 磌 窱 節 类 絛 練 缾 者 荒 華 蝹 襁 覆 視 調 諸 請 謁 諾 諭 謹 變 贈 輸 遲"),
  (0xfac4, "醙 鉶 陼 難 靖 韛 響 頋 頻 鬒 龜 𢡊 𢡄 𣏕 㮝 䀘 䀹 𥉉 𥳐 𧻓 齃 龎"), (0xfb1d, "\u05d9\u05b4"),
  (0xfb1f, "\u05f2\u05b7"),
  (0xfb2a, "\u05e9\u05c1 \u05e9\u05c2 \u05e9\u05bc\u05c1 \u05e9\u05bc\u05c2 \u05d0\u05b7"),
  (0xfb2f, "\u05d0\u05b8 \u05d0\u05bc \u05d1\u05bc \u05d2\u05bc \u05d3\u05bc \u05d4\u05bc"),
  (0xfb35, "\u05d5\u05bc \u05d6\u05bc"),
  (0xfb38, "\u05d8\u05bc \u05d9\u05bc \u05da\u05bc \u05db\u05bc \u05dc\u05bc"),
  (0xfb3e, "\u05de\u05bc"), (0xfb40, "\u05e0\u05bc \u05e1\u05bc"),
  (0xfb43, "\u05e3\u05bc \u05e4\u05bc"),
  (0xfb46, "\u05e6\u05bc \u05e7\u05bc \u05e8\u05bc \u05e9\u05bc \u05ea\u05bc \u05d5\u05b9"),
  (0xfb4c, "\u05d1\u05bf \u05db\u05bf \u05e4\u05bf"),
  (0x2f800, "丽 丸 乁 𠄢 你 侮 侻 倂 偺 備 僧 像 㒞 𠘺 免 兔 兤 具 𠔜 㒹 內 再 𠕋 冗 冤 仌 冬 况 𩇟 凵 刃 㓟 刻 剆 割 剷 㔕 勇 勉 勤 勺 包"),
  (0x2f82a, "匆 北 卉 卑 博 即 卽 卿 卿 卿 𠨬 灰 及 叟 𠭣 叫 叱 吆 咞 吸 呈 周 咢 哶 唐 啓 啣 善 善 喙 喫 喳 嗂 圖 嘆 圗 噑 噴 切 壮 城 埴"),
  (0x2f854, "堍 型 堲 報 墬 𡓤 売 壷 夆 多 夢 奢 𡚨 𡛪 姬 娛 娧 姘 婦 㛮 㛼 嬈 嬾 嬾 𡧈 寃 寘 寧 寳 𡬘 寿 将 当 尢 㞁 屠 屮 峀 岍 𡷤 嵃 𡷦"),
  (0x2f87e, "嵮 嵫 嵼 巡 巢 㠯 巽 帨 帽 幩 㡢 𢆃 㡼 庰 庳 庶 廊 𪎒 廾 𢌱 𢌱 舁 弢 弢 㣇 𣊸 𦇚 形 彫 㣣 徚 忍 志 忹 悁 㤺 㤜 悔 𢛔 惇 慈 慌"),
  (0x2f8a8, "慎 慌 慺 憎 憲 憤 憯 懞 懲 懶 成 戛 扝 抱 拔 捐 𢬌 挽 拼 捨 掃 揤 𢯱 搢 揅 掩 㨮 摩 摾 撝 摷 㩬 敏 敬 𣀊 旣 書 晉 㬙 暑 㬈 㫤"),
  (0x2f8d2, "冒 冕 最 暜 肭 䏙 朗 望 朡 杞 杓 𣏃 㭉 柺 枅 桒 梅 𣑭 梎 栟 椔 㮝 楂 榣 槪 檨 𣚣 櫛 㰘 次 𣢧 歔 㱎 歲 殟 殺 殻 𣪍 𡴋 𣫺 汎 𣲼"),
  (0x2f8fc, "沿 泍 汧 洖 派 海 流 浩 浸 涅 𣴞 洴 港 湮 㴳 滋 滇 𣻑 淹 潮 𣽞 𣾎 濆 瀹 瀞 瀛 㶖 灊 災 灷 炭 𠔥 煅 𤉣 熜 𤎫 爨 爵 牐 𤘈 犀 犕"),
  (0x2f926, "𤜵 𤠔 獺 王 㺬 玥 㺸 㺸 瑇 瑜 瑱 璅 瓊 㼛 甤 𤰶 甾 𤲒 異 𢆟 瘐 𤾡 𤾸 𥁄 㿼 䀈 直 𥃳 𥃲 𥄙 𥄳 眞 真 真 睊 䀹 瞋 䁆 䂖 𥐝 硎 碌"),
  (0x2f950, "磌 䃣 𥘦 祖 𥚚 𥛅 福 秫 䄯 穀 穊 穏 𥥼 𥪧 𥪧 竮 䈂 𥮫 篆 築 䈧 𥲀 糒 䊠 糨 糣 紀 𥾆 絣 䌁 緇 縂 繅 䌴 𦈨 𦉇 䍙 𦋙 罺 𦌾 羕 翺"),
  (0x2f97a, "者 𦓚 𦔣 聠 𦖨 聰 𣍟 䏕 育 脃 䐋 脾 媵 𦞧 𦞵 𣎓 𣎜 舁 舄 辞 䑫 芑 芋 芝 劳 花 芳 芽 苦 𦬼 若 茝 荣 莭 茣 莽 菧 著 荓 菊 菌 菜"),
  (0x2f9a4, "𦰶 𦵫 𦳕 䔫 蓱 蓳 蔖 𧏊 蕤 𦼬 䕝 䕡 𦾱 𧃒 䕫 虐 虜 虧 虩 蚩 蚈 蜎 蛢 蝹 蜨 蝫 螆 䗗 蟡 蠁 䗹 衠 衣 𧙧 裗 裞 䘵 裺 㒻 𧢮 𧥦 䚾"),
  (0x2f9ce, "䛇 誠 諭 變 豕 𧲨 貫 賁 贛 起 𧼯 𠠄 跋 趼 跰 𠣞 軔 輸 𨗒 𨗭 邔 郱 鄑 𨜮 鄛 鈸 鋗 鋘 鉼 鏹 鐕 𨯺 開 䦕 閷 𨵷 䧦 雃 嶲 霣 𩅅 𩈚"),
  (0x2f9f8, "䩮 䩶 韠 𩐊 䪲 𩒖 頋 頋 頩 𩖶 飢 䬳 餩 馧 駂 駾 䯎 𩬰 鬒 鱀 鳽 䳎 䳭 鵧 𪃎 䳸 𪄅 𪈎 𪊑 麻 䵖 黹 黾 鼅 鼏 鼖 鼻 𪘀")]

def replacements : List (Nat × List (List Char)) :=
  Spelling.read replacementRows ++ [
    (0x1d15e, [[Char.ofNat 0x1d157, Char.ofNat 0x1d165]]),
    (0x1d15f, [[Char.ofNat 0x1d158, Char.ofNat 0x1d165]]),
    (0x1d160, [[Char.ofNat 0x1d158, Char.ofNat 0x1d165, Char.ofNat 0x1d16e]]),
    (0x1d161, [[Char.ofNat 0x1d158, Char.ofNat 0x1d165, Char.ofNat 0x1d16f]]),
    (0x1d162, [[Char.ofNat 0x1d158, Char.ofNat 0x1d165, Char.ofNat 0x1d170]]),
    (0x1d163, [[Char.ofNat 0x1d158, Char.ofNat 0x1d165, Char.ofNat 0x1d171]]),
    (0x1d164, [[Char.ofNat 0x1d158, Char.ofNat 0x1d165, Char.ofNat 0x1d172]]),
    (0x1d1bb, [[Char.ofNat 0x1d1b9, Char.ofNat 0x1d165]]),
    (0x1d1bc, [[Char.ofNat 0x1d1ba, Char.ofNat 0x1d165]]),
    (0x1d1bd, [[Char.ofNat 0x1d1b9, Char.ofNat 0x1d165, Char.ofNat 0x1d16e]]),
    (0x1d1be, [[Char.ofNat 0x1d1ba, Char.ofNat 0x1d165, Char.ofNat 0x1d16e]]),
    (0x1d1bf, [[Char.ofNat 0x1d1b9, Char.ofNat 0x1d165, Char.ofNat 0x1d16f]]),
    (0x1d1c0, [[Char.ofNat 0x1d1ba, Char.ofNat 0x1d165, Char.ofNat 0x1d16f]])]

end PayFormula.Text.Composition

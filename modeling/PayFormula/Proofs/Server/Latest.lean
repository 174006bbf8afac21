import Mathlib.Data.List.Induction
import PayFormula.Proofs.Server.Entries
import PayFormula.Server

/-!
# The latest text

Which text of a document counts after a number of notifications, told from the
notifications alone, and that a server goes by this text: whatever came before, it
answers like a server that was given only the latest text. Each notification has
its own text's problems published and nothing else.
-/
namespace PayFormula

namespace Notification

/-- What a notification says about the text of a document: nothing, that there is none any more,
or what it is. -/
def verdict? (uri : Uri) : Notification → Option (Option String)
  | .ready => none
  | .opened uri' text _ => if uri = uri' then some (some text) else none
  | .changed uri' texts _ => if uri = uri' then texts.getLast?.map some else none
  | .closed uri' => if uri = uri' then some none else none

/-- What is published on a notification: the problems of the text that it gives, under its
version, and for a closed document none. -/
def publications (features : Features) : Notification → List Publication
  | .ready => []
  | .opened uri text version => [⟨uri, features.diagnostics (.ofSource text), some version⟩]
  | .changed uri texts version => texts.getLast?.toList.map fun text =>
    ⟨uri, features.diagnostics (.ofSource text), some version⟩
  | .closed uri => [⟨uri, [], none⟩]

/-- The text of a document after notifications, by the last one that says something about it. -/
def latestText? (uri : Uri) (history : List Notification) : Option String :=
  (history.reverse.findSome? (verdict? uri)).join

theorem latestText?_concat (uri : Uri) (history : List Notification) (n : Notification) :
    latestText? uri (history ++ [n]) = (n.verdict? uri).getD (latestText? uri history) := by
  rw [latestText?, List.reverse_append, List.reverse_singleton, List.singleton_append,
    List.findSome?_cons]
  cases n.verdict? uri <;> rfl

end Notification

namespace Server

open Notification

/-- The server after notifications, one after another. -/
def after (server : Server) (history : List Notification) : Server :=
  history.foldl (fun server n => (server.notify n).2) server

/-- What is published on each of the notifications. -/
def published (server : Server) : List Notification → List (List Publication)
  | [] => []
  | n :: history => (server.notify n).1 :: published (server.notify n).2 history

/-- The server has the latest text of each document, uncancelled, and no other document. -/
structure UpToDate (features : Features) (settings : Settings) (history : List Notification)
    (server : Server) : Prop where
  features : server.features = features
  settings : server.settings = settings
  store : server.store.Sound
  current? : ∀ uri, server.store.current? uri =
    (latestText? uri history).map fun text => ⟨.ofSource text, false⟩

variable {server : Server} {features : Features} {settings : Settings}
  {history : List Notification}

theorem update_snd (server : Server) (uri : Uri) (text : String) (version : Int) :
    (server.update uri text version).2 =
      { server with store := (server.store.upsert uri text).2 } := rfl

theorem update_fst (h : server.store.Sound) (uri : Uri) (text : String) (version : Int) :
    (server.update uri text version).1 =
      server.publish ⟨uri, server.features.diagnostics (.ofSource text), some version⟩ := by
  unfold update
  simp only [h.snapshot?_upsert text]

/-- One notification publishes what it has to. -/
theorem notify_fst (h : server.store.Sound) (n : Notification) :
    (server.notify n).1 =
      if server.settings.publishDiagnostics then n.publications server.features else [] := by
  cases n with
  | ready => simp [notify, publications]
  | opened uri text version => exact update_fst h uri text version
  | changed uri texts version =>
    simp only [notify, publications]
    cases texts.getLast? with
    | none => simp
    | some text => exact update_fst h uri text version
  | closed uri => rfl

theorem UpToDate.update (h : server.UpToDate features settings history) {n : Notification}
    {uri : Uri} {text : String} (version : Int)
    (hn : ∀ uri', n.verdict? uri' = if uri' = uri then some (some text) else none) :
    (server.update uri text version).2.UpToDate features settings (history ++ [n]) where
  features := h.features
  settings := h.settings
  store := h.store.upsert text
  current? uri' := by
    rw [latestText?_concat, hn, update_snd]
    refine (h.store.current?_upsert text).trans ?_
    split
    · rfl
    · exact h.current? uri'

/-- A notification that says nothing about any document leaves the server as it is. -/
theorem UpToDate.ignore (h : server.UpToDate features settings history) {n : Notification}
    (hn : ∀ uri, n.verdict? uri = none) : server.UpToDate features settings (history ++ [n]) where
  features := h.features
  settings := h.settings
  store := h.store
  current? uri := by
    rw [latestText?_concat, hn]
    exact h.current? uri

theorem UpToDate.notify (h : server.UpToDate features settings history) (n : Notification) :
    (server.notify n).2.UpToDate features settings (history ++ [n]) := by
  cases n with
  | ready => exact h.ignore fun _ => rfl
  | opened uri text version => exact h.update version fun _ => rfl
  | changed uri texts version =>
    rw [Server.notify]
    split
    · rename_i text hlast
      exact h.update version fun uri' => by rw [verdict?, hlast]; rfl
    · rename_i hlast
      refine h.ignore fun uri' => ?_
      rw [verdict?, hlast]
      exact ite_self _
  | closed uri =>
    refine ⟨h.features, h.settings, h.store.close, fun uri' => ?_⟩
    rw [latestText?_concat, verdict?]
    refine h.store.current?_close.trans ?_
    split
    · rfl
    · exact h.current? uri'

theorem after_concat (server : Server) (history : List Notification) (n : Notification) :
    server.after (history ++ [n]) = ((server.after history).notify n).2 := by
  rw [after, List.foldl_append]
  rfl

theorem published_concat (server : Server) (history : List Notification) (n : Notification) :
    server.published (history ++ [n]) =
      server.published history ++ [((server.after history).notify n).1] := by
  induction history generalizing server with
  | nil => rfl
  | cons first history ih => exact congrArg (List.cons _) (ih _)

theorem upToDate_start : (start features settings).UpToDate features settings [] :=
  ⟨rfl, rfl, Store.sound_empty, fun _ => rfl⟩

theorem upToDate_after (features : Features) (settings : Settings) (history : List Notification) :
    ((start features settings).after history).UpToDate features settings history := by
  induction history using List.reverseRecOn with
  | nil => exact upToDate_start
  | append_singleton history n ih =>
    rw [after_concat]
    exact ih.notify n

theorem published_start (features : Features) (settings : Settings) (history : List Notification) :
    (start features settings).published history =
      history.map fun n => if settings.publishDiagnostics then n.publications features else [] := by
  induction history using List.reverseRecOn with
  | nil => rfl
  | append_singleton history n ih =>
    have h := upToDate_after features settings history
    rw [published_concat, ih, List.map_append, notify_fst h.store, h.settings, h.features]
    rfl

/-! ### Answers -/

/-- An answer about a snapshot depends on the features and settings only. -/
theorem answerOn_congr {server' : Server} (hfeatures : server'.features = server.features)
    (hsettings : server'.settings = server.settings) (uri : Uri) (snapshot : Snapshot)
    (question : Question) :
    server'.answerOn uri snapshot question = server.answerOn uri snapshot question := by
  obtain ⟨features, settings, store⟩ := server
  obtain ⟨features', settings', store'⟩ := server'
  cases hfeatures
  cases hsettings
  cases question <;> rfl

theorem UpToDate.answer (h : server.UpToDate features settings history) (uri : Uri)
    (question : Question) : server.answer (.ask uri question) =
      match latestText? uri history with
      | some text => (start features settings).answerOn uri ⟨.ofSource text, false⟩ question
      | none => .ok .nothing := by
  rw [Server.answer, h.current?]
  cases latestText? uri history with
  | none => rfl
  | some text => exact answerOn_congr h.features h.settings uri _ question

end Server

/-! ### No answer is cut short

A search is given up only in a document that is cancelled. -/

theorem Program.enclosing_live (p : Program) (place : Position) :
    p.enclosing place false = if p.span.contains place then .ok ((Node.program p).pathTo place)
      else .error (.outOfRange place) := by
  rw [Program.enclosing]
  cases p.span.contains place <;> rfl

namespace Document

variable (d : Document) (place : Position)

theorem exists_targetAt_live : ∃ target, d.targetAt place false = .ok target := by
  rw [targetAt, Program.nodeAt, Program.enclosing_live]
  by_cases h : d.program.span.contains place
  · rw [if_pos h]
    exact ⟨_, rfl⟩
  · rw [if_neg h]
    exact ⟨none, rfl⟩

theorem exists_callAround_live : ∃ site, d.callAround place false = .ok site := by
  rw [callAround, Program.enclosing_live]
  by_cases h : d.program.span.contains (place.left 1)
  · rw [if_pos h]
    exact ⟨_, rfl⟩
  · rw [if_neg h]
    exact ⟨none, rfl⟩

theorem exists_definition_live : ∃ span, d.definition place false = .ok span := by
  obtain ⟨target, htarget⟩ := d.exists_targetAt_live place
  rw [definition, htarget]
  exact ⟨_, rfl⟩

theorem exists_signatureHelp_live : ∃ help, d.signatureHelp place false = .ok help := by
  obtain ⟨site, hsite⟩ := d.exists_callAround_live place
  rw [signatureHelp, hsite]
  exact ⟨_, rfl⟩

theorem rename_ne_aborted (newName : String) :
    d.rename place newName false ≠ .error .aborted := by
  have hname : validateName newName ≠ .error .aborted := by
    rw [validateName]
    repeat' split
    all_goals simp
  obtain ⟨target, htarget⟩ := d.exists_targetAt_live place
  rw [rename, htarget]
  cases hv : validateName newName with
  | error e =>
    rw [hv] at hname
    exact fun h => hname (congrArg Except.error (Except.error.inj h))
  | ok _ => cases target <;> nofun

end Document

namespace Server

open Notification

theorem answerOn_ne_contentModified (settings : Settings) (uri : Uri) (d : Document)
    (question : Question) :
    (start .standard settings).answerOn uri ⟨d, false⟩ question ≠ .error .contentModified := by
  have standard (features : Features) : (start features settings).features = features := rfl
  cases question with
  | coloring | symbols | completion => nofun
  | hover place =>
    rw [answerOn]
    split <;> nofun
  | signatureHelp place =>
    obtain ⟨help, hhelp⟩ := d.exists_signatureHelp_live place
    simp only [answerOn, standard, Features.standard, hhelp]
    cases help <;> nofun
  | definition place =>
    obtain ⟨span, hspan⟩ := d.exists_definition_live place
    simp only [answerOn, standard, Features.standard, hspan]
    cases span <;> nofun
  | rename place newName =>
    have hne := d.rename_ne_aborted place newName
    simp only [answerOn, standard, Features.standard]
    cases hr : d.rename place newName false with
    | ok edits => cases edits <;> nofun
    | error e =>
      rw [hr] at hne
      cases e with
      | aborted => exact absurd rfl hne
      | reserved _ | invalidName _ => nofun

/-- A server answers about each document by its latest text, as a server does that was only given
this text, whatever was opened, changed and closed before; about a document that is not open it
answers nothing. No answer says that the document changed under the request. Each notification has
the problems of its own text published under its own version, an empty list where it closes a
document, and nothing at all if the settings say so. -/
theorem answers_latest_text (settings : Settings) (history : List Notification) :
    (∀ uri question version, ((start .standard settings).after history).answer (.ask uri question) =
        match latestText? uri history with
        | some text =>
          ((start .standard settings).after [.opened uri text version]).answer (.ask uri question)
        | none => .ok .nothing) ∧
      (∀ uri question, ((start .standard settings).after history).answer (.ask uri question) ≠
        .error .contentModified) ∧
      (start .standard settings).published history = history.map fun n =>
        if settings.publishDiagnostics then n.publications .standard else [] := by
  have h := upToDate_after .standard settings history
  refine ⟨fun uri question version => ?_, fun uri question => ?_, published_start _ _ history⟩
  · rw [h.answer]
    cases latestText? uri history with
    | none => rfl
    | some text =>
      have hlatest : latestText? uri [.opened uri text version] = some text := by
        simp [latestText?, verdict?]
      have hfresh := (upToDate_after .standard settings [.opened uri text version]).answer
        uri question
      rw [hlatest] at hfresh
      exact hfresh.symm
  · rw [h.answer]
    cases latestText? uri history with
    | none => nofun
    | some text => exact answerOn_ne_contentModified settings uri _ question

end Server

end PayFormula

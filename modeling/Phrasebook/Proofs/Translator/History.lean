import Mathlib.Data.List.Chain
import Mathlib.Data.List.Induction
import Mathlib.Logic.Function.Basic
import Phrasebook.Proofs.Catalog.Presentation
import Phrasebook.Proofs.Loader.Notices
import Phrasebook.Translator

/-!
# The history of a translator

Clients share a translator. Each of them publishes catalogs, switches locales and asks, and what
they do is interleaved step by step. Publishing is one step. A switch is two, loading and
publishing, and other clients may publish in between. A `Run` is any such interleaving, with what
was published, answered and told in it.

Every run is `Recorded`: each catalog gives way exactly once, to the one published next, what is
told goes on from what was told before, and every answer comes from the one catalog that was active
when it was given.
-/

namespace Phrasebook.Translator

/-! ## Requests -/

inductive Request where
  | text (context source : String) (disambiguation : Option String)
  | filled (context source : String) (args : List String)
  | counted (context source : String) (count : Int)

namespace Request

/-- The answer to a request. -/
def answer (translator : Translator) : Request → String
  | .text context source disambiguation => translator.translate context source disambiguation
  | .filled context source args => translator.translateWith context source args
  | .counted context source count => translator.translateCounted context source count

/-- The source text of a request with its arguments or its count filled in. -/
def untranslated : Request → String
  | .text _ source _ => source
  | .filled _ source args => Template.withArgs source args
  | .counted _ source count => Template.withCount source count

theorem answer_empty (request : Request) : request.answer ⟨.empty⟩ = request.untranslated := by
  have htext (context source : String) (disambiguation : Option String) :
      Catalog.empty.translate context source disambiguation = source := by
    rw [Catalog.translate, Catalog.presented?_empty]
  cases request with
  | text context source disambiguation => exact htext context source disambiguation
  | filled context source args =>
    exact congrArg (Template.withArgs · args) (htext context source none)
  | counted context source count =>
    show Template.withCount (Catalog.pluralTemplate _ _ _ _ _) count = _
    rw [Catalog.pluralTemplate, Catalog.presented?_empty]
    rfl

end Request

/-! ## Publishing -/

/-- Why a catalog is published. -/
inductive Cause where
  | replaced (catalog : Catalog)
  | reset
  /-- A switch to a locale, with what loading it came to. -/
  | switched (identifier : String) (result : Except LoadError Catalog)

namespace Cause

/-- The catalog that is published: the source language after a reset and after loading failed. -/
def catalog : Cause → Catalog
  | .replaced catalog => catalog
  | .reset => .empty
  | .switched _ (.ok catalog) => catalog
  | .switched _ (.error _) => .empty

def warnings : Cause → List Notice
  | .switched identifier (.error error) => [.switchFailed identifier error]
  | .replaced _ | .reset | .switched _ (.ok _) => []

end Cause

/-- A switch of locale publishes once, when loading is done. -/
theorem switch_eq_publish (translator : Translator) (loader : Loader) (files : FileSystem)
    (identifier : String) :
    translator.switch loader files identifier =
      let loaded := loader.load files identifier
      let cause := Cause.switched identifier loaded.value
      let publication := translator.publish cause.catalog
      ⟨publication.translator, loaded.value.map fun _ => (),
        loaded.notices ++ cause.warnings ++ [publication.notice]⟩ := by
  unfold switch
  simp only
  split
  · rename_i catalog hvalue
    rw [hvalue]
    simp [Cause.catalog, Cause.warnings, Except.map]
  · rename_i error hvalue
    rw [hvalue]
    simp [Cause.catalog, Cause.warnings, Except.map, reset]

/-- A publication and its cause. -/
structure Published where
  cause : Cause
  publication : Publication

/-- An answer to a request and how many publications there were before it. -/
structure Answer where
  after : Nat
  request : Request
  text : String

/-- A translator that clients share, and what has happened to it. -/
structure Shared (Client : Type) where
  translator : Translator
  /-- The switches that have loaded but not yet published, each with its locale and the result. -/
  loaded : Client → Option (String × Except LoadError Catalog) := fun _ => none
  history : List Published := []
  answers : List Answer := []
  log : List Notice := []

/-- What a client does in one step. -/
inductive Action where
  | replace (catalog : Catalog)
  | reset
  /-- The first half of a switch of locale. -/
  | load (loader : Loader) (files : FileSystem) (identifier : String)
  /-- The second half of a switch of locale. -/
  | finish
  | ask (request : Request)

namespace Action

def publishes : Action → Bool
  | .replace _ | .reset | .finish => true
  | .load _ _ _ | .ask _ => false

def isLoad : Action → Bool
  | .load _ _ _ => true
  | .replace _ | .reset | .finish | .ask _ => false

def isFinish : Action → Bool
  | .finish => true
  | .replace _ | .reset | .load _ _ _ | .ask _ => false

end Action

variable {Client : Type}

namespace Shared

/-- Publishes a catalog and keeps the publication. -/
def publish (shared : Shared Client) (cause : Cause) : Shared Client :=
  let publication := shared.translator.publish cause.catalog
  { shared with
    translator := publication.translator
    history := shared.history ++ [⟨cause, publication⟩]
    log := shared.log ++ cause.warnings ++ [publication.notice] }

/-- Loads a locale for a client, which has yet to publish it. -/
def load [DecidableEq Client] (shared : Shared Client) (client : Client) (loader : Loader)
    (files : FileSystem) (identifier : String) : Shared Client :=
  let result := loader.load files identifier
  { shared with
    loaded := Function.update shared.loaded client (some (identifier, result.value))
    log := shared.log ++ result.notices }

def finish [DecidableEq Client] (shared : Shared Client) (client : Client) (identifier : String)
    (result : Except LoadError Catalog) : Shared Client :=
  { shared with loaded := Function.update shared.loaded client none }.publish
    (.switched identifier result)

def ask (shared : Shared Client) (request : Request) : Shared Client :=
  { shared with
    answers := shared.answers ++
      [⟨shared.history.length, request, request.answer shared.translator⟩] }

/-- A step of a client. In the middle of a switch the only step is to finish it. -/
def perform? [DecidableEq Client] (shared : Shared Client) (client : Client) (action : Action) :
    Option (Shared Client) :=
  match shared.loaded client, action with
  | none, .replace catalog => some (shared.publish (.replaced catalog))
  | none, .reset => some (shared.publish .reset)
  | none, .load loader files identifier => some (shared.load client loader files identifier)
  | none, .ask request => some (shared.ask request)
  | some (identifier, result), .finish => some (shared.finish client identifier result)
  | none, .finish | some _, _ => none

end Shared

/-- The interleavings of what clients do with a translator, and what they lead to. -/
inductive Run [DecidableEq Client] (initial : Catalog) :
    List (Client × Action) → Shared Client → Prop
  | start : Run initial [] { translator := ⟨initial⟩ }
  | step {trace : List (Client × Action)} {shared next : Shared Client} {client : Client}
    {action : Action} (h : Run initial trace shared)
    (hstep : shared.perform? client action = some next) :
    Run initial (trace ++ [(client, action)]) next

namespace Shared

variable [DecidableEq Client] {shared next : Shared Client} {client : Client} {action : Action}

/-- What a step can do: replace the active catalog, reset it, load, finish a switch, or ask. -/
theorem perform?_eq_some (h : shared.perform? client action = some next) :
    (∃ catalog, action = .replace catalog ∧ next = shared.publish (.replaced catalog)) ∨
      (action = .reset ∧ next = shared.publish .reset) ∨
      (∃ loader files identifier, shared.loaded client = none ∧
        action = .load loader files identifier ∧
        next = shared.load client loader files identifier) ∨
      (∃ identifier result, shared.loaded client = some (identifier, result) ∧ action = .finish ∧
        next = shared.finish client identifier result) ∨
      ∃ request, action = .ask request ∧ next = shared.ask request := by
  unfold perform? at h
  split at h
  · rename_i catalog hidle
    cases h
    exact .inl ⟨catalog, rfl, rfl⟩
  · cases h
    exact .inr (.inl ⟨rfl, rfl⟩)
  · rename_i loader files identifier hidle
    cases h
    exact .inr (.inr (.inl ⟨loader, files, identifier, hidle, rfl, rfl⟩))
  · rename_i request hidle
    cases h
    exact .inr (.inr (.inr (.inr ⟨request, rfl, rfl⟩)))
  · rename_i identifier result hloaded
    cases h
    exact .inr (.inr (.inr (.inl ⟨identifier, result, hloaded, rfl, rfl⟩)))
  · cases h
  · cases h

theorem perform?_load (hidle : shared.loaded client = none) (loader : Loader) (files : FileSystem)
    (identifier : String) :
    shared.perform? client (.load loader files identifier) =
      some (shared.load client loader files identifier) := by
  simp only [perform?, hidle]

theorem perform?_finish {identifier : String} {result : Except LoadError Catalog}
    (hloaded : shared.loaded client = some (identifier, result)) :
    shared.perform? client .finish = some (shared.finish client identifier result) := by
  simp only [perform?, hloaded]

/-- Without other clients in between, both halves of a switch are a switch. -/
theorem perform?_switch (hidle : shared.loaded client = none) (loader : Loader) (files : FileSystem)
    (identifier : String) :
    ∃ next,
      (shared.perform? client (.load loader files identifier)).bind (·.perform? client .finish) =
        some next ∧
      next.translator = (shared.translator.switch loader files identifier).translator ∧
      next.log = shared.log ++ (shared.translator.switch loader files identifier).notices ∧
      next.loaded = shared.loaded := by
  have hloaded : (shared.load client loader files identifier).loaded client =
      some (identifier, (loader.load files identifier).value) := Function.update_self _ _ _
  refine ⟨(shared.load client loader files identifier).finish client identifier
    (loader.load files identifier).value, ?_, ?_, ?_, ?_⟩
  · rw [perform?_load hidle, Option.bind_some, perform?_finish hloaded]
  · rw [switch_eq_publish]
    rfl
  · rw [switch_eq_publish]
    simp [finish, publish, load]
  · simp [finish, publish, load, ← hidle]

end Shared

/-! ## What every step keeps -/

/-- The catalogs that have been active, in order: the initial one and the published ones. -/
def Shared.catalogs (initial : Catalog) (shared : Shared Client) : List Catalog :=
  initial :: shared.history.map fun entry => entry.cause.catalog

/-- A publication puts the catalog of its cause in the place of the one it returns, and tells so. -/
def Published.Made (entry : Published) : Prop :=
  entry.publication = Translator.publish ⟨entry.publication.previous⟩ entry.cause.catalog

/-- What has happened to a translator fits together. -/
structure Consistent (initial : Catalog) (shared : Shared Client) : Prop where
  returned : (shared.history.map fun entry => entry.publication.previous) ++
    [shared.translator.active] = shared.catalogs initial
  made : ∀ entry ∈ shared.history, entry.Made
  infos : (shared.log.filter fun notice => notice.severity = .info) =
    shared.history.map fun entry => entry.publication.notice
  answered : ∀ answer ∈ shared.answers, ∃ catalog,
    (shared.catalogs initial)[answer.after]? = some catalog ∧
      answer.text = answer.request.answer ⟨catalog⟩

namespace Consistent

variable {initial : Catalog} {shared : Shared Client}

theorem start (initial : Catalog) :
    Consistent initial ({ translator := ⟨initial⟩ } : Shared Client) where
  returned := rfl
  made := fun _ hmem => absurd hmem List.not_mem_nil
  infos := rfl
  answered := fun _ hmem => absurd hmem List.not_mem_nil

theorem filter_warnings (cause : Cause) :
    cause.warnings.filter (fun notice => notice.severity = .info) = [] := by
  cases cause with
  | replaced catalog => rfl
  | reset => rfl
  | switched identifier result => cases result <;> rfl

theorem publish (h : Consistent initial shared) (cause : Cause) :
    Consistent initial (shared.publish cause) where
  returned := by
    have hcatalogs : (shared.publish cause).catalogs initial =
        shared.catalogs initial ++ [cause.catalog] := by
      simp [Shared.catalogs, Shared.publish]
    rw [hcatalogs, ← h.returned]
    simp [Shared.publish, Translator.publish]
  made entry hmem := by
    rcases List.mem_append.1 hmem with hold | hnew
    · exact h.made entry hold
    · rw [List.mem_singleton.1 hnew]
      rfl
  infos := by
    show ((shared.log ++ cause.warnings ++ [_]).filter _) = (shared.history ++ [_]).map _
    rw [List.filter_append, List.filter_append, filter_warnings, h.infos, List.map_append,
      List.append_nil]
    rfl
  answered answer hmem := by
    obtain ⟨catalog, hcatalog, htext⟩ := h.answered answer hmem
    refine ⟨catalog, ?_, htext⟩
    show (initial :: (shared.history ++ [_]).map _)[_]? = _
    rw [List.map_append, ← List.cons_append]
    exact (List.getElem?_append_left (List.getElem?_eq_some_iff.1 hcatalog).1).trans hcatalog

theorem load [DecidableEq Client] (h : Consistent initial shared) (client : Client)
    (loader : Loader)
    (files : FileSystem) (identifier : String) :
    Consistent initial (shared.load client loader files identifier) where
  returned := h.returned
  made := h.made
  infos := by
    have hnone :
        (loader.load files identifier).notices.filter
          (fun notice => notice.severity = .info) = [] :=
      List.filter_eq_nil_iff.2 fun notice hmem => by
        simpa using Loader.severity_of_mem_load hmem
    show ((shared.log ++ _).filter _) = _
    rw [List.filter_append, hnone, List.append_nil]
    exact h.infos
  answered := h.answered

theorem finish [DecidableEq Client] (h : Consistent initial shared) (client : Client)
    (identifier : String)
    (result : Except LoadError Catalog) :
    Consistent initial (shared.finish client identifier result) :=
  have hreleased :
      Consistent initial { shared with loaded := Function.update shared.loaded client none } :=
    ⟨h.returned, h.made, h.infos, h.answered⟩
  hreleased.publish _

theorem ask (h : Consistent initial shared) (request : Request) :
    Consistent initial (shared.ask request) where
  returned := h.returned
  made := h.made
  infos := h.infos
  answered answer hmem := by
    rcases List.mem_append.1 hmem with hold | hnew
    · exact h.answered answer hold
    · rw [List.mem_singleton.1 hnew]
      -- the catalog after the last publication is the active one
      refine ⟨shared.translator.active, ?_, rfl⟩
      show (shared.catalogs initial)[shared.history.length]? = _
      rw [← h.returned, List.getElem?_append_right (by rw [List.length_map]), List.length_map,
        Nat.sub_self]
      rfl

theorem perform? [DecidableEq Client] {next : Shared Client} {client : Client} {action : Action}
    (h : Consistent initial shared) (hstep : shared.perform? client action = some next) :
    Consistent initial next := by
  obtain ⟨catalog, -, rfl⟩ | ⟨-, rfl⟩ | ⟨loader, files, identifier, -, -, rfl⟩ |
    ⟨identifier, result, -, -, rfl⟩ | ⟨request, -, rfl⟩ := Shared.perform?_eq_some hstep
  · exact h.publish (.replaced catalog)
  · exact h.publish .reset
  · exact h.load client loader files identifier
  · exact h.finish client identifier result
  · exact h.ask request

end Consistent

theorem Run.consistent [DecidableEq Client] {initial : Catalog} {trace : List (Client × Action)}
    {shared : Shared Client} (h : Run initial trace shared) : Consistent initial shared := by
  induction h with
  | start => exact .start initial
  | step _ hstep ih => exact ih.perform? hstep

/-! ## Steps and publications -/

/-- Why a step of a client publishes: a switch publishes what the client has loaded. -/
inductive Cause.Stems (trace : List (Client × Action)) (client : Client) : Action → Cause → Prop
  | replace (catalog : Catalog) : Stems trace client (.replace catalog) (.replaced catalog)
  | reset : Stems trace client .reset .reset
  | finish {loader : Loader} {files : FileSystem} {identifier : String}
    (hload : (client, .load loader files identifier) ∈ trace) :
    Stems trace client .finish (.switched identifier (loader.load files identifier).value)

theorem Cause.Stems.append {trace : List (Client × Action)} {client : Client} {action : Action}
    {cause : Cause} (h : Stems trace client action cause) (later : List (Client × Action)) :
    Stems (trace ++ later) client action cause := by
  cases h with
  | replace catalog => exact .replace catalog
  | reset => exact .reset
  | finish hload => exact .finish (List.mem_append_left later hload)

/-- What happened to a translator is what the clients did. -/
structure Booked [DecidableEq Client] (trace : List (Client × Action))
    (shared : Shared Client) : Prop where
  /-- The steps that publish, in order, are why something was published. -/
  published : List.Forall₂ (fun step entry => entry.cause.Stems trace step.1 step.2)
    (trace.filter fun step => step.2.publishes) shared.history
  /-- Each switch publishes once after loading, unless it is not done yet. -/
  switches : ∀ client, (trace.countP fun step => step.1 = client ∧ step.2.isLoad) =
    (trace.countP fun step => step.1 = client ∧ step.2.isFinish) +
      if (shared.loaded client).isSome then 1 else 0
  /-- What has yet to be published is what was loaded. -/
  pending : ∀ client identifier result, shared.loaded client = some (identifier, result) →
    Cause.Stems trace client .finish (.switched identifier result)

section Steps

variable [DecidableEq Client] {initial : Catalog} {trace : List (Client × Action)}
  {shared next : Shared Client} {client : Client} {action : Action}

namespace Booked

theorem start (initial : Catalog) : Booked [] ({ translator := ⟨initial⟩ } : Shared Client) where
  published := .nil
  switches _ := rfl
  pending := fun _ _ _ hloaded => nomatch hloaded

theorem stems_append (h : Booked trace shared) (later : List (Client × Action)) :
    List.Forall₂ (fun step entry => entry.cause.Stems (trace ++ later) step.1 step.2)
      (trace.filter fun step => step.2.publishes) shared.history :=
  h.published.imp fun _ _ hstems => hstems.append later

theorem published_publish (h : Booked trace shared) {cause : Cause}
    (hpublishes : action.publishes = true) (hcause : cause.Stems trace client action) :
    List.Forall₂ (fun step entry => entry.cause.Stems (trace ++ [(client, action)]) step.1 step.2)
      ((trace ++ [(client, action)]).filter fun step => step.2.publishes)
      (shared.publish cause).history := by
  rw [List.filter_append, List.filter_cons_of_pos (by simpa using hpublishes), List.filter_nil]
  exact List.rel_append (h.stems_append _) (.cons (hcause.append _) .nil)

theorem published_append (h : Booked trace shared) (hpublishes : action.publishes = false) :
    List.Forall₂ (fun step entry => entry.cause.Stems (trace ++ [(client, action)]) step.1 step.2)
      ((trace ++ [(client, action)]).filter fun step => step.2.publishes) shared.history := by
  rw [List.filter_append, List.filter_cons_of_neg (by simp [hpublishes]), List.filter_nil,
    List.append_nil]
  exact h.stems_append _

/-- A step of another client, and a step that is no part of a switch, leave a switch where it
was. -/
theorem switches_append (h : Booked trace shared) {other : Client}
    (hother : client ≠ other ∨ action.isLoad = false ∧ action.isFinish = false) :
    ((trace ++ [(client, action)]).countP fun step => step.1 = other ∧ step.2.isLoad) =
      ((trace ++ [(client, action)]).countP fun step => step.1 = other ∧ step.2.isFinish) +
        if (shared.loaded other).isSome then 1 else 0 := by
  rw [List.countP_append, List.countP_append, h.switches]
  obtain hother | ⟨hload, hfinish⟩ := hother
  · simp [hother]
  · simp [hload, hfinish]

theorem pending_append (h : Booked trace shared) {other : Client} {identifier : String}
    {result : Except LoadError Catalog}
    (hloaded : shared.loaded other = some (identifier, result)) :
    Cause.Stems (trace ++ [(client, action)]) other .finish (.switched identifier result) :=
  (h.pending other identifier result hloaded).append _

theorem replace (h : Booked trace shared) (catalog : Catalog) :
    Booked (trace ++ [(client, .replace catalog)]) (shared.publish (.replaced catalog)) where
  published := h.published_publish rfl (.replace catalog)
  switches _ := h.switches_append (.inr ⟨rfl, rfl⟩)
  pending _ _ _ := h.pending_append

theorem reset (h : Booked trace shared) :
    Booked (trace ++ [(client, .reset)]) (shared.publish .reset) where
  published := h.published_publish rfl .reset
  switches _ := h.switches_append (.inr ⟨rfl, rfl⟩)
  pending _ _ _ := h.pending_append

theorem ask (h : Booked trace shared) (request : Request) :
    Booked (trace ++ [(client, .ask request)]) (shared.ask request) where
  published := h.published_append rfl
  switches _ := h.switches_append (.inr ⟨rfl, rfl⟩)
  pending _ _ _ := h.pending_append

theorem load (h : Booked trace shared) (hidle : shared.loaded client = none) (loader : Loader)
    (files : FileSystem) (identifier : String) :
    Booked (trace ++ [(client, .load loader files identifier)])
      (shared.load client loader files identifier) where
  published := h.published_append rfl
  switches other := by
    by_cases hother : client = other
    · -- one more switch has loaded, and it is the one that is not done yet
      subst hother
      rw [List.countP_append, List.countP_append, h.switches]
      simp [Action.isLoad, Action.isFinish, Shared.load, hidle]
    · have hsame :
          (shared.load client loader files identifier).loaded other = shared.loaded other :=
        Function.update_of_ne (Ne.symm hother) _ _
      rw [hsame]
      exact h.switches_append (.inl hother)
  pending other identifier' result hloaded := by
    by_cases hother : other = client
    · subst hother
      obtain ⟨rfl, rfl⟩ :
          identifier = identifier' ∧ (loader.load files identifier).value = result := by
        simpa [Shared.load] using hloaded
      exact .finish (List.mem_append_right _ (List.mem_singleton.2 rfl))
    · have hsame :
          (shared.load client loader files identifier).loaded other = shared.loaded other :=
        Function.update_of_ne hother _ _
      exact h.pending_append (hsame ▸ hloaded)

theorem finish (h : Booked trace shared) {identifier : String} {result : Except LoadError Catalog}
    (hloaded : shared.loaded client = some (identifier, result)) :
    Booked (trace ++ [(client, .finish)]) (shared.finish client identifier result) where
  published := h.published_publish rfl (h.pending client identifier result hloaded)
  switches other := by
    by_cases hother : client = other
    · subst hother
      rw [List.countP_append, List.countP_append, h.switches]
      simp [Action.isLoad, Action.isFinish, Shared.finish, Shared.publish, hloaded]
    · have hsame : (shared.finish client identifier result).loaded other = shared.loaded other :=
        Function.update_of_ne (Ne.symm hother) _ _
      rw [hsame]
      exact h.switches_append (.inl hother)
  pending other identifier' result' hpending := by
    by_cases hother : other = client
    · subst hother
      have hnone : (shared.finish other identifier result).loaded other = none :=
        Function.update_self _ _ _
      rw [hnone] at hpending
      cases hpending
    · have hsame : (shared.finish client identifier result).loaded other = shared.loaded other :=
        Function.update_of_ne hother _ _
      exact h.pending_append (hsame ▸ hpending)

theorem perform? (h : Booked trace shared) (hstep : shared.perform? client action = some next) :
    Booked (trace ++ [(client, action)]) next := by
  obtain ⟨catalog, rfl, rfl⟩ | ⟨rfl, rfl⟩ | ⟨loader, files, identifier, hidle, rfl, rfl⟩ |
    ⟨identifier, result, hloaded, rfl, rfl⟩ | ⟨request, rfl, rfl⟩ := Shared.perform?_eq_some hstep
  · exact h.replace catalog
  · exact h.reset
  · exact h.load hidle loader files identifier
  · exact h.finish hloaded
  · exact h.ask request

end Booked

theorem Run.booked (h : Run initial trace shared) : Booked trace shared := by
  induction h with
  | start => exact .start initial
  | step _ hstep ih => exact ih.perform? hstep

end Steps

/-! ## The history of a run -/

/-- What is published next to each other hangs together if the lists of what came and of what went
do. -/
theorem isChain_of_map_eq {α β : Type} {came went : α → β} {entries : List α} {first last : β}
    (h : entries.map went ++ [last] = first :: entries.map came) :
    entries.IsChain fun earlier later => went later = came earlier := by
  induction entries generalizing first with
  | nil => exact .nil
  | cons entry rest ih =>
    have hrest := (List.cons.inj h).2
    match rest with
    | [] => exact .singleton entry
    | later :: _ => exact .cons_cons (List.cons.inj hrest).1 (ih hrest)

theorem Published.Made.details_eq {entry : Published} (h : entry.Made) :
    entry.publication.notice.details =
      [("from", .text (entry.publication.previous.language.getD "source")),
        ("to", .text (entry.cause.catalog.language.getD "source")),
        ("messages", .number entry.cause.catalog.messageCount)] := by
  rw [h]
  rfl

/-- The publication of a switch is that of a switch of the translator. -/
theorem Published.Made.switch_eq {entry : Published} (h : entry.Made) {loader : Loader}
    {files : FileSystem} {identifier : String}
    (hcause : entry.cause = .switched identifier (loader.load files identifier).value) :
    Translator.switch ⟨entry.publication.previous⟩ loader files identifier =
      { translator := entry.publication.translator
        outcome := (loader.load files identifier).value.map fun _ => ()
        notices := (loader.load files identifier).notices ++ entry.cause.warnings ++
          [entry.publication.notice] } := by
  rw [switch_eq_publish]
  dsimp only
  rw [← hcause, ← h]

/-- The history of a run: it fits together and is what the clients did, each piece of information
tells the publication that it is about and goes on from the one before it, both halves of a switch
make a switch of the translator, and after a switch that failed there is nothing but source text. -/
structure Recorded [DecidableEq Client] (initial : Catalog) (trace : List (Client × Action))
    (shared : Shared Client) : Prop extends Consistent initial shared, Booked trace shared where
  details : ∀ entry ∈ shared.history, entry.publication.translator.active = entry.cause.catalog ∧
    entry.publication.notice.details =
      [("from", .text (entry.publication.previous.language.getD "source")),
        ("to", .text (entry.cause.catalog.language.getD "source")),
        ("messages", .number entry.cause.catalog.messageCount)]
  chain : (shared.log.filter fun notice => notice.severity = .info).IsChain fun earlier later =>
    later.details.lookup "from" = earlier.details.lookup "to"
  /-- What a switch publishes is what a switch of the translator publishes that holds the catalog
  which gives way. -/
  switched : ∀ entry ∈ shared.history,
    ∀ (loader : Loader) (files : FileSystem) (identifier : String),
      entry.cause = .switched identifier (loader.load files identifier).value →
      Translator.switch ⟨entry.publication.previous⟩ loader files identifier =
        { translator := entry.publication.translator
          outcome := (loader.load files identifier).value.map fun _ => ()
          notices := (loader.load files identifier).notices ++ entry.cause.warnings ++
            [entry.publication.notice] }
  /-- Where no other client comes in between, both halves of a switch are a switch. -/
  alone : ∀ client, shared.loaded client = none →
    ∀ (loader : Loader) (files : FileSystem) (identifier : String), ∃ next,
      (shared.perform? client (.load loader files identifier)).bind (·.perform? client .finish) =
          some next ∧
        next.translator = (shared.translator.switch loader files identifier).translator ∧
        next.log = shared.log ++ (shared.translator.switch loader files identifier).notices ∧
        next.loaded = shared.loaded
  /-- Until the next publication every request is answered from its source text. -/
  failed : ∀ entry, shared.history.getLast? = some entry → ∀ identifier error,
    entry.cause = .switched identifier (.error error) →
      ∀ request : Request, request.answer shared.translator = request.untranslated
  /-- Every answer that was given meanwhile is such an answer. -/
  untranslated : ∀ answer ∈ shared.answers, ∀ n entry, answer.after = n + 1 →
    shared.history[n]? = some entry → ∀ identifier error,
      entry.cause = .switched identifier (.error error) → answer.text = answer.request.untranslated

section Histories

variable {initial : Catalog} {shared : Shared Client}

theorem Consistent.chain (h : Consistent initial shared) :
    (shared.log.filter fun notice => notice.severity = .info).IsChain fun earlier later =>
      later.details.lookup "from" = earlier.details.lookup "to" := by
  rw [h.infos, List.isChain_map]
  refine List.IsChain.imp_of_mem_imp (fun earlier later hearlier hlater hlink => ?_)
    (isChain_of_map_eq h.returned)
  rw [(h.made earlier hearlier).details_eq, (h.made later hlater).details_eq, hlink]
  rfl

theorem Consistent.active_eq (h : Consistent initial shared) {entry : Published}
    (hlast : shared.history.getLast? = some entry) :
    shared.translator.active = entry.cause.catalog := by
  have hends := congrArg List.getLast? h.returned
  rw [List.getLast?_concat, Shared.catalogs, List.getLast?_cons, List.getLast?_map, hlast] at hends
  exact Option.some.inj hends

theorem Consistent.failed (h : Consistent initial shared) {entry : Published}
    (hlast : shared.history.getLast? = some entry) {identifier : String} {error : LoadError}
    (hcause : entry.cause = .switched identifier (.error error)) (request : Request) :
    request.answer shared.translator = request.untranslated := by
  have hactive : shared.translator = ⟨.empty⟩ := by
    have hempty := h.active_eq hlast
    rw [hcause] at hempty
    exact congrArg Translator.mk hempty
  rw [hactive, Request.answer_empty]

theorem Consistent.untranslated (h : Consistent initial shared) {answer : Answer}
    (hanswer : answer ∈ shared.answers) {n : Nat} {entry : Published}
    (hafter : answer.after = n + 1)
    (hentry : shared.history[n]? = some entry) {identifier : String} {error : LoadError}
    (hcause : entry.cause = .switched identifier (.error error)) :
    answer.text = answer.request.untranslated := by
  obtain ⟨catalog, hcatalog, htext⟩ := h.answered answer hanswer
  rw [hafter, Shared.catalogs, List.getElem?_cons_succ, List.getElem?_map, hentry] at hcatalog
  obtain rfl : entry.cause.catalog = catalog := Option.some.inj hcatalog
  rw [htext, hcause]
  exact answer.request.answer_empty

end Histories

/-- Every run is recorded, whichever clients there are, whatever they do and however that is
interleaved. -/
theorem Run.recorded [DecidableEq Client] {initial : Catalog} {trace : List (Client × Action)}
    {shared : Shared Client} (h : Run initial trace shared) : Recorded initial trace shared where
  toConsistent := h.consistent
  toBooked := h.booked
  details entry hmem := by
    have hmade := h.consistent.made entry hmem
    exact ⟨by rw [hmade]; rfl, hmade.details_eq⟩
  chain := h.consistent.chain
  switched entry hmem _ _ _ := (h.consistent.made entry hmem).switch_eq
  alone _ := Shared.perform?_switch
  failed _ hlast _ _ hcause := h.consistent.failed hlast hcause
  untranslated _ hanswer _ _ hafter hentry _ _ := h.consistent.untranslated hanswer hafter hentry

/-- A client starts to switch to a locale that is none, another one publishes a catalog meanwhile,
the switch fails, and then the other client asks. -/
def crossing : List (Bool × Action) :=
  [(true, .load {} {} ""), (false, .replace { language := some "pl" }), (true, .finish),
    (false, .ask (.counted "Player" "%n tracks" 3))]

/-- The switch gives up the catalog that was published meanwhile, and the answer is in the source
language. -/
theorem Run.recorded_crossing : ∃ shared, Run .empty crossing shared ∧
    Recorded .empty crossing shared ∧
    (shared.history.map fun entry => entry.publication.notice) =
      [.catalogReplaced none (some "pl") 0, .catalogReplaced (some "pl") none 0] ∧
    shared.answers.map Answer.text = ["3 tracks"] := by
  have hrun :
      Run .empty crossing (((({ translator := ⟨.empty⟩ } : Shared Bool).load true {} {} "").publish
        (.replaced { language := some "pl" })).finish true "" (.error (.invalidLocale "")) |>.ask
        (.counted "Player" "%n tracks" 3)) :=
    .step (.step (.step (.step .start rfl) rfl) rfl) rfl
  have hrecorded := hrun.recorded
  refine ⟨_, hrun, hrecorded, rfl, ?_⟩
  have htext := hrecorded.untranslated _ (List.mem_singleton.2 rfl) 1 _ rfl rfl _ _ rfl
  exact congrArg (fun text => [text]) (htext.trans (by decide))

end Phrasebook.Translator

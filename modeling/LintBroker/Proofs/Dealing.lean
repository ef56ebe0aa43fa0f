import LintBroker.Proofs.Settling

/-!
# What comes of an answer

If listeners only observe, then what comes of an answer is determined by what can be read when it is
there, by the registration that it is presented to, and by whether its dispatch has been asked to end:
whether the registration hears of it, which update is made of it, and whether the end is announced.
Whatever else there is, other registrations above all, has no part in it.
-/
namespace LintBroker
open Dispatch

namespace Entry

/-- The answer that was given to a dispatch, if the entry tells of that. -/
def answered? : Entry → Option (Dispatch × Except Failure Value)
  | .answered d r => some (d, r)
  | _ => none

/-- The notice that was emitted of a dispatch, if the entry tells of that. -/
def emitted? : Entry → Option (Dispatch × Notice)
  | .emitted d n => some (d, n)
  | _ => none

end Entry

def answersIn (K : List Entry) : List (Dispatch × Except Failure Value) :=
  K.filterMap Entry.answered?

def emittedIn (K : List Entry) : List (Dispatch × Notice) := K.filterMap Entry.emitted?

section entries
variable {K K' : List Entry}

@[simp] theorem answersIn_nil : answersIn [] = [] := rfl
@[simp] theorem emittedIn_nil : emittedIn [] = [] := rfl

@[simp] theorem answersIn_append : answersIn (K ++ K') = answersIn K ++ answersIn K' :=
  List.filterMap_append

@[simp] theorem emittedIn_append : emittedIn (K ++ K') = emittedIn K ++ emittedIn K' :=
  List.filterMap_append

theorem mem_answersIn_iff {d : Dispatch} {r : Except Failure Value} :
    (d, r) ∈ answersIn K ↔ .answered d r ∈ K := by
  simp only [answersIn, List.mem_filterMap]
  constructor
  · rintro ⟨e, he, hd⟩
    cases e <;> simp only [Entry.answered?, reduceCtorEq, Option.some.injEq, Prod.mk.injEq] at hd
    obtain ⟨rfl, rfl⟩ := hd
    exact he
  · exact fun h => ⟨_, h, rfl⟩

theorem filterMap_of_quiet {α : Type} {f : Entry → Option α}
    (quiet : ∀ e, e.isQuiet = true → f e = none) :
    (K.filter fun e => !e.isQuiet).filterMap f = K.filterMap f := by
  rw [List.filterMap_filter]
  congr 1
  funext e
  cases h : e.isQuiet with
  | true => simp [quiet e h]
  | false => simp

theorem answersIn_filter : answersIn (K.filter fun e => !e.isQuiet) = answersIn K :=
  filterMap_of_quiet fun e h => by cases e <;> first | rfl | cases h

theorem emittedIn_filter : emittedIn (K.filter fun e => !e.isQuiet) = emittedIn K :=
  filterMap_of_quiet fun e h => by cases e <;> first | rfl | cases h

theorem told_emission (d : Dispatch) (n : Notice) (audience : List ListenerId) :
    answersIn (Act.emissionEntries d n audience) = [] ∧
      emittedIn (Act.emissionEntries d n audience) = [(d, n)] := by
  have calls : answersIn (audience.flatMap (Act.callEntries d n)) = [] ∧
      emittedIn (audience.flatMap (Act.callEntries d n)) = [] := by
    induction audience with
    | nil => exact ⟨rfl, rfl⟩
    | cons l audience ih =>
      rw [List.flatMap_cons, answersIn_append, emittedIn_append, ih.1, ih.2]
      exact ⟨rfl, rfl⟩
  exact ⟨calls.1, congrArg ((d, n) :: ·) calls.2⟩

end entries

namespace Session
variable {s s' s'' u : Session} {d : Dispatch} {p : ProviderId} {x : Record Nat} {asked : Bool}
  {r : Except Failure Value}

/-! ### What is to come of an answer -/

/-- Whether the registration hears of an answer, of a dispatch that has been asked to end or not. What
is no list is reported by the name of the provider, and a fault has to be one that a provider may
have. -/
def hears (s : Session) (p : ProviderId) (asked : Bool) : Except Failure Value → Bool
  | .ok v => v.sequence?.isSome || (s.nameOf p).isOk
  | .error f => (s.nameOf p).isOk && if f.isCancellation then !asked else f.isOrdinary

/-- Whether messages in a scope may be surfaced: the surface says that it is not destroyed, if they
are about a file. -/
def shows (s : Session) (surface : SurfaceId) : Scope → Bool
  | .project => true
  | .file => match s.answerOf surface .destroyed with
    | .ok v => !v.truthy
    | .error _ => false

/-- The update that is made of an answer, if messages may be surfaced. -/
def updateOf (s : Session) (d : Dispatch) (x : Record Nat) : Except Failure Value → Option Notice
  | .error _ => none
  | .ok v => match s.scopeOf x.provider with
    | .error _ => none
    | .ok scope =>
      if x.activated && s.shows d.context.surface scope then
        some (.update x.provider (.list (messagesOf v)) (d.context.bufferIn scope))
      else none

/-- The update that is made of an answer that the registration hears of, if it is news. -/
def updateFor (s : Session) (d : Dispatch) (x : Record Nat) (r : Except Failure Value) :
    Option Notice :=
  if x.counters.isNews d.generation then s.updateOf d x r else none

/-- The end that is announced, if the scope of the provider can be read. -/
def finishFor (s : Session) (d : Dispatch) (p : ProviderId) : Option Notice :=
  match s.scopeOf p with
  | .error _ => none
  | .ok scope => some (.finish p (d.context.pathIn scope))

/-- The registration after an answer. -/
def received (s : Session) (asked : Bool) (d : Dispatch) (r : Except Failure Value)
    (x : Record Nat) : Record Nat :=
  if s.hears x.provider asked r then { x with counters := x.counters.receive d.generation } else x

/-- The notices that are emitted upon an answer. -/
def noticesUpon (s : Session) (asked : Bool) (d : Dispatch) (r : Except Failure Value)
    (x : Record Nat) : List Notice :=
  (if s.hears x.provider asked r then s.updateFor d x r else none).toList ++
    (s.finishFor d x.provider).toList

/-- All that matters for what comes of answers can be read as before. -/
structure ReadsAlike (s s' : Session) : Prop where
  nameOf : ∀ p, s'.nameOf p = s.nameOf p
  scopeOf : ∀ p, s'.scopeOf p = s.scopeOf p
  destroyed : ∀ id, s'.answerOf id .destroyed = s.answerOf id .destroyed

namespace ReadsAlike
variable (h : s.ReadsAlike s')
include h

theorem hears (p : ProviderId) (asked : Bool) (r : Except Failure Value) :
    s'.hears p asked r = s.hears p asked r := by
  cases r <;> simp only [Session.hears, h.nameOf]

theorem shows (surface : SurfaceId) (scope : Scope) :
    s'.shows surface scope = s.shows surface scope := by
  cases scope <;> simp only [Session.shows, h.destroyed]

theorem updateFor (d : Dispatch) (x : Record Nat) (r : Except Failure Value) :
    s'.updateFor d x r = s.updateFor d x r := by
  cases r <;> simp only [Session.updateFor, updateOf, h.scopeOf, h.shows]

theorem received (asked : Bool) (d : Dispatch) (r : Except Failure Value) (x : Record Nat) :
    s'.received asked d r x = s.received asked d r x := by
  rw [Session.received, h.hears, Session.received]

theorem noticesUpon (asked : Bool) (d : Dispatch) (r : Except Failure Value) (x : Record Nat) :
    s'.noticesUpon asked d r x = s.noticesUpon asked d r x := by
  simp only [Session.noticesUpon, h.hears, h.updateFor, finishFor, h.scopeOf]

theorem legible (legible : s.Legible p d) : s'.Legible p d := by
  obtain ⟨name, scope, surface⟩ := legible
  refine ⟨?_, ?_, ?_⟩
  · rwa [h.nameOf]
  · rwa [h.scopeOf]
  · rwa [h.scopeOf, h.destroyed]

end ReadsAlike

/-- These answers were given and these notices emitted, and all that can be read is as before. -/
structure Passes (s s' : Session) (answers : List (Dispatch × Except Failure Value))
    (notices : List (Dispatch × Notice)) : Prop where
  history : ∃ K, s'.history = s.history ++ K ∧ answersIn K = answers ∧ emittedIn K = notices
  reads : s.ReadsAlike s'
  listeners : s'.host.listeners = s.host.listeners

section passes
variable {A A' : List (Dispatch × Except Failure Value)} {N N' : List (Dispatch × Notice)}

theorem Passes.trans (h : s.Passes s' A N) (h' : s'.Passes s'' A' N') :
    s.Passes s'' (A ++ A') (N ++ N') := by
  obtain ⟨K, hK, rfl, rfl⟩ := h.history
  obtain ⟨K', hK', rfl, rfl⟩ := h'.history
  refine ⟨⟨K ++ K', ?_, answersIn_append, emittedIn_append⟩,
    ⟨fun p => ?_, fun p => ?_, fun id => ?_⟩, h'.listeners.trans h.listeners⟩
  · rw [hK', hK, List.append_assoc]
  · exact (h'.reads.nameOf p).trans (h.reads.nameOf p)
  · exact (h'.reads.scopeOf p).trans (h.reads.scopeOf p)
  · exact (h'.reads.destroyed id).trans (h.reads.destroyed id)

theorem Airs.readsAlike {K : List Entry} (h : s.Airs K s') : s.ReadsAlike s' :=
  ⟨fun p => congrArg (· >>= Attributes.name) (h.attributesOf p),
    fun p => congrArg (· >>= Attributes.scope) (h.attributesOf p), fun id => h.answerOf id _⟩

theorem Airs.passes {K : List Entry} (h : s.Airs K s') :
    s.Passes s' (answersIn K) (emittedIn K) := by
  refine ⟨?_, h.readsAlike, h.listeners⟩
  obtain ⟨_, J, rfl, rfl⟩ := h
  exact ⟨J, by simp [Session.history], answersIn_filter.symm, emittedIn_filter.symm⟩

theorem passes_emit (handling : Option Failure) (d : Dispatch) (n : Notice)
    (observed : s.Observed) : s.Passes ((Act.emit handling d n).exec s).2 [] [(d, n)] := by
  obtain ⟨answers, notices⟩ := told_emission d n (s.registry.bus.audience n.kind)
  have airs := (Act.airs_emit handling d n observed).2.passes
  rwa [answers, notices] at airs

theorem passes_accept (hx : s.registry.records[d.record]? = some x) :
    s.Passes ((accept d).exec s).2 [] [] := by
  rw [exec_accept hx]
  exact ⟨⟨[_], history_noted _ _, rfl, rfl⟩, ⟨fun _ => rfl, fun _ => rfl, fun _ => rfl⟩, rfl⟩

end passes

/-! ### What does come of it -/

/-- An answer was dealt with: what was to come of it came of it, and nothing else. -/
structure Deals (s s' : Session) (asked : Bool) (d : Dispatch) (r : Except Failure Value)
    (x : Record Nat) : Prop where
  passes : s.Passes s' [(d, r)] ((s.noticesUpon asked d r x).map (d, ·))
  records : s'.registry.records = s.registry.records.modify d.record fun _ => s.received asked d r x

end Session

namespace Dispatch
open Session Act
variable {s s' u : Session} {d : Dispatch} {p : ProviderId} {x : Record Nat} {asked : Bool}
  {r : Except Failure Value}

/-- An answer is contained exactly if the registration hears of it. -/
theorem contain_iff_hears (p : ProviderId) (asked : Bool) (r : Except Failure Value) (s : Session) :
    if s.hears p asked r then ((contain p asked r).exec s).1 = .ok (outcomeOf r)
      else ∃ e, ((contain p asked r).exec s).1 = .error e := by
  have report (f : Failure) (summary : String → String) :
      let out := (do
        let name ← during (some f) (Broker.nameOf p)
        reportFault (summary name) f
        return Outcome.fault : Act Outcome).exec s
      if (s.nameOf p).isOk then out.1 = .ok .fault else ∃ e, out.1 = .error e := by
    intro out
    cases named : s.nameOf p with
    | error e =>
      obtain ⟨e', he⟩ := exec_during_error (some f)
        (show (Broker.nameOf p).exec s = (.error e, s) by rw [Broker.exec_nameOf, named])
      exact ⟨e', congrArg Prod.fst (exec_bind_error he)⟩
    | ok name =>
      have he := exec_during_ok (some f)
        (show (Broker.nameOf p).exec s = (.ok name, s) by rw [Broker.exec_nameOf, named])
      have goes : out = _ := exec_bind_ok he
      rw [goes, exec_bind_ok (Prod.ext (exec_reportFault _ _) rfl)]
      rfl
  cases r with
  | ok v =>
    simp only [hears, contain]
    cases list : v.sequence? with
    | some items => simp [outcomeOf]
    | none =>
      cases named : s.nameOf p with
      | error e => simp [exec_bind, Broker.exec_nameOf, named, Except.isOk, Except.toBool]
      | ok name =>
        simp [exec_bind, Broker.exec_nameOf, named, Except.isOk, Except.toBool, Except.map, outcomeOf]
  | error f =>
    simp only [hears, contain]
    by_cases cancels : f.isCancellation = true
    · simp only [cancels, if_true]
      cases asked with
      | true =>
        simp only [Bool.not_true, Bool.and_false, Bool.false_eq_true, if_false]
        exact ⟨f, rfl⟩
      | false =>
        simp only [Bool.not_false, Bool.and_true]
        exact report f _
    · by_cases ordinary : f.isOrdinary = true
      · simp only [cancels, ordinary, Bool.false_eq_true, if_false, if_true, Bool.and_true]
        exact report f _
      · simp only [cancels, ordinary, Bool.and_false, Bool.false_eq_true, if_false]
        exact ⟨f, rfl⟩

theorem surfaces_eq_shows (hx : s.registry.records[d.record]? = some x) {scope : Scope}
    (hs : s.scopeOf p = .ok scope) :
    s.Surfaces d p ↔ (x.activated && s.shows d.context.surface scope) = true := by
  rw [surfaces_iff hx hs, Bool.and_eq_true]
  refine and_congr_right fun _ => ?_
  cases scope with
  | project => simp [shows]
  | file =>
    simp only [shows]
    cases s.answerOf d.context.surface .destroyed <;> simp

theorem updateOf_of_surfaces (hx : s.registry.records[d.record]? = some x)
    (may : s.Surfaces d x.provider) (v : Value) : ∃ scope, s.scopeOf x.provider = .ok scope ∧
      s.updateOf d x (.ok v) = some (.update x.provider (.list (messagesOf v))
        (d.context.bufferIn scope)) := by
  obtain ⟨scope, hs⟩ : ∃ scope, s.scopeOf x.provider = .ok scope := by
    rcases may with ⟨_, hs | ⟨hs, _⟩⟩ <;> exact ⟨_, hs⟩
  refine ⟨scope, hs, ?_⟩
  simp only [updateOf, hs, if_pos ((surfaces_eq_shows hx hs).mp may)]

theorem updateOf_of_not_surfaces (hx : s.registry.records[d.record]? = some x)
    (may : ¬ s.Surfaces d x.provider) (v : Value) : s.updateOf d x (.ok v) = none := by
  cases hs : s.scopeOf x.provider with
  | error f => simp only [updateOf, hs]
  | ok scope =>
    rw [surfaces_eq_shows hx hs] at may
    simp only [updateOf, hs, if_neg may]

private theorem surfaced_update (hx : s.registry.records[d.record]? = some x) (v : Value) :
    let out := (do
      if ← shouldSurface d x.provider then
        return some (← Round.updateNotice x.provider d.context (.list (messagesOf v)))
      return none : Act (Option Notice)).exec s
    s.Still out.2 ∧ out.1.toOption.join = s.updateOf d x (.ok v) := by
  intro out
  have may := shouldSurface_iff (p := x.provider) hx
  have still : s.Still ((shouldSurface d x.provider).exec s).2 :=
    keepsTo_shouldSurface (still_noted rfl) x.provider s
  obtain ⟨b, w, he⟩ | ⟨f, w, he⟩ := exec_cases (shouldSurface d x.provider) s
  · have goes : out = _ := exec_bind_ok he
    rw [he] at may still
    cases b with
    | false =>
      rw [goes, updateOf_of_not_surfaces hx fun h => by simpa using may.mpr h]
      exact ⟨still, rfl⟩
    | true =>
      obtain ⟨scope, hs, made⟩ := updateOf_of_surfaces hx (may.mp rfl) v
      have read : w.scopeOf x.provider = .ok scope := by
        rw [Session.scopeOf, Airs.attributesOf still, ← hs, Session.scopeOf]
      have shown : out = (.ok (some (.update x.provider (.list (messagesOf v))
          (d.context.bufferIn scope))), w) :=
        goes.trans (exec_bind_ok (by rw [exec_updateNotice, read]; rfl))
      rw [shown, made]
      exact ⟨still, rfl⟩
  · have goes : out = _ := exec_bind_error he
    rw [he] at may still
    rw [goes, updateOf_of_not_surfaces hx fun h => by simpa using may.mpr h]
    exact ⟨still, rfl⟩

private theorem presented_update (hx : s.registry.records[d.record]? = some x) (hp : x.provider = p)
    (news : Bool) (r : Except Failure Value) :
    let out := (do
      if !news then
        let name ← Broker.nameOf p
        trace ("Dropping stale response " ++ toString d.generation ++ " from " ++ Text.quoted name)
        return none
      match outcomeOf r with
      | .fault => return none
      | .messages items => do
        if ← shouldSurface d p then
          return some (← Round.updateNotice p d.context (.list items))
        return none : Act (Option Notice)).exec s
    s.Still out.2 ∧ out.1.toOption.join = if news then s.updateOf d x r else none := by
  intro out
  subst hp
  cases news with
  | false =>
    cases hn : s.nameOf x.provider with
    | error f =>
      have fails : out = (.error f, s) := exec_bind_error (by rw [Broker.exec_nameOf, hn])
      rw [fails]
      exact ⟨.refl s, rfl⟩
    | ok name =>
      have traced : out = (.ok none, s.noted (.trace ("Dropping stale response " ++
          toString d.generation ++ " from " ++ Text.quoted name))) :=
        exec_bind_ok (by rw [Broker.exec_nameOf, hn])
      rw [traced]
      exact ⟨still_noted rfl s, rfl⟩
  | true =>
    cases r with
    | error f => exact ⟨.refl s, rfl⟩
    | ok v => exact surfaced_update hx v

theorem modify_of_getElem? {records : Array (Record Nat)} {id : RecordId}
    (hx : records[id]? = some x) (change : Record Nat → Record Nat) :
    records.modify id change = records.modify id fun _ => change x := by
  refine Array.ext_getElem? fun i => ?_
  rw [Array.getElem?_modify, Array.getElem?_modify]
  split
  · subst i
    rw [hx]
    rfl
  · rfl

theorem modify_self {records : Array (Record Nat)} {id : RecordId} (hx : records[id]? = some x) :
    records.modify id (fun _ => x) = records := by
  refine Array.ext_getElem? fun i => ?_
  rw [Array.getElem?_modify]
  split
  · subst i
    rw [hx]
    rfl
  · rfl

/-- What comes of an answer before anything is emitted: the registration hears of it or not, and the
update that is due is made. -/
theorem respond_deals (asked : Bool) (r : Except Failure Value)
    (hx : s.registry.records[d.record]? = some x) :
    let out := (respond d x.provider asked r).exec s
    s.Passes out.2 [(d, r)] [] ∧
      out.2.registry.records = s.registry.records.modify d.record (fun _ => s.received asked d r x) ∧
      out.1.toOption.join = if s.hears x.provider asked r then s.updateFor d x r else none := by
  intro out
  let s₁ := s.noted (.answered d r)
  let u := ((contain x.provider asked r).exec s₁).2
  have still : s₁.Still u := keepsTo_contain still_lines x.provider asked r s₁
  have airs : s.Airs [.answered d r] u := (airs_noted rfl s).still still
  have passes : s.Passes u [(d, r)] [] := airs.passes
  have contained : if s.hears x.provider asked r then
      ((contain x.provider asked r).exec s₁).1 = .ok (outcomeOf r)
      else ∃ e, ((contain x.provider asked r).exec s₁).1 = .error e :=
    contain_iff_hears x.provider asked r s₁
  have goes : out = _ := exec_bind_ok (exec_note _)
  by_cases hears : s.hears x.provider asked r = true
  · rw [if_pos hears] at contained
    have hu : u.registry.records[d.record]? = some x := airs.registry ▸ hx
    have worth : (awaited (contain x.provider asked r)).exec s₁ = (.ok (outcomeOf r), u) := by
      rw [exec_awaited, contained]
      rfl
    have accepted : (accept d).exec u = (.ok (x.counters.isNews d.generation), ((accept d).exec u).2) :=
      Prod.ext (by rw [exec_accept hu]) rfl
    have before : s.Passes ((accept d).exec u).2 [(d, r)] [] := passes.trans (passes_accept hu)
    obtain ⟨after, update⟩ := presented_update (p := x.provider) (record_accept hu) rfl
      (x.counters.isNews d.generation) r
    have whole : out = _ := goes.trans ((exec_bind_ok worth).trans (exec_bind_ok accepted))
    have registry : out.2.registry = ((accept d).exec u).2.registry :=
      (congrArg (·.2.registry) whole).trans (Airs.registry after)
    refine ⟨?_, ?_, ?_⟩
    · rw [whole]
      exact before.trans after.passes
    · rw [registry, exec_accept hu, received, if_pos hears, ← airs.registry]
      exact modify_of_getElem? hu fun y => { y with counters := y.counters.receive d.generation }
    · rw [if_pos hears]
      refine ((congrArg (·.1.toOption.join) whole).trans update).trans ?_
      rw [← before.reads.updateFor]
      rfl
  · rw [if_neg hears] at contained
    obtain ⟨e, leaves⟩ := contained
    have fails : (awaited (contain x.provider asked r)).exec s₁ = (.error e.leaving, u) := by
      rw [exec_awaited, leaves]
      rfl
    have whole : out = (.error e.leaving, u) := goes.trans (exec_bind_error fails)
    rw [whole, if_neg hears]
    refine ⟨passes, ?_, rfl⟩
    rw [received, if_neg hears, airs.registry]
    exact (modify_self hx).symm

theorem deliver_deals (observed : s.Observed) (asked : Bool) (r : Except Failure Value)
    (hx : s.registry.records[d.record]? = some x) :
    let out := (deliver d x.provider asked r).exec s
    s.Passes out.2 [(d, r)] ((if s.hears x.provider asked r then s.updateFor d x r else none).toList.map
      (d, ·)) ∧
      out.2.registry.records = s.registry.records.modify d.record fun _ => s.received asked d r x := by
  intro out
  obtain ⟨passes, records, update⟩ := respond_deals asked r hx
  rcases he : (respond d x.provider asked r).exec s with ⟨_ | (_ | n), u⟩
  · have goes : out = _ := exec_bind_error he
    rw [he] at passes records update
    rw [goes, ← update]
    exact ⟨passes, records⟩
  · have goes : out = _ := exec_bind_ok he
    rw [he] at passes records update
    rw [goes, ← update]
    exact ⟨passes, records⟩
  · have goes : out = _ := exec_bind_ok he
    rw [he] at passes records update
    have emits := airs_emit none d n (observed.congr passes.listeners)
    rw [goes, ← update]
    refine ⟨passes.trans (passes_emit none d n (observed.congr passes.listeners)), ?_⟩
    rw [← records, show _ = u.registry from emits.2.registry]

theorem announceEnd_passes (observed : s.Observed) (leaving : Option Failure) :
    let out := (announceEnd d p leaving).exec s
    s.Passes out.2 [] ((s.finishFor d p).toList.map (d, ·)) ∧ out.2.registry = s.registry := by
  intro out
  rcases exec_announceEnd d p leaving s with ⟨scope, hs, emits⟩ | ⟨⟨f, hs⟩, e, fails⟩
  · rw [show out = _ from emits, finishFor, hs]
    exact ⟨passes_emit leaving d _ observed, (airs_emit leaving d _ observed).2.registry⟩
  · rw [show out = _ from fails, finishFor, hs]
    exact ⟨Airs.passes (Airs.refl s), rfl⟩

/-- Once the answer of a provider is there, it is dealt with. -/
theorem deals_conclude (observed : s.Observed) (asked : Bool) (r : Except Failure Value)
    (hx : s.registry.records[d.record]? = some x) :
    s.Deals ((conclude d x.provider asked r).exec s).2 asked d r x := by
  obtain ⟨delivers, records⟩ := deliver_deals observed asked r hx
  obtain ⟨announces, same⟩ := announceEnd_passes (d := d) (p := x.provider)
    (observed.congr delivers.listeners) (failure? ((deliver d x.provider asked r).exec s).1)
  rw [session_conclude]
  refine ⟨?_, by rw [same, records]⟩
  have both := delivers.trans announces
  simp only [finishFor, delivers.reads.scopeOf] at both
  simpa only [noticesUpon, finishFor, List.map_append, List.append_nil] using both

/-- A dispatch that is not asked to end ends well if its provider and its surface can be read and its
answer is contained. -/
theorem conclude_ok (observed : s.Observed) (legible : s.Legible x.provider d)
    (contained : Contained r) (hx : s.registry.records[d.record]? = some x) :
    ((conclude d x.provider false r).exec s).1 = .ok () := by
  obtain ⟨_, _, _, done, _⟩ := deliver_contained observed legible hx contained
  have passes := (deliver_deals observed false r hx).1
  have announced (leaving : Option Failure) : ((announceEnd d x.provider leaving).exec
      ((deliver d x.provider false r).exec s).2).1 = .ok () := by
    rcases exec_announceEnd d x.provider leaving ((deliver d x.provider false r).exec s).2 with
      ⟨scope, _, emits⟩ | ⟨⟨f, unscoped⟩, _⟩
    · rw [emits]
      exact (airs_emit leaving d _ (observed.congr passes.listeners)).1
    · obtain ⟨scope, hs⟩ := legible.scope
      rw [passes.reads.scopeOf, hs] at unscoped
      cases unscoped
  rw [conclude, exec_bind_ok (exec_attempt _), exec_bind_ok (Prod.ext (announced _) rfl), done]
  rfl

end Dispatch
end LintBroker

import LintBroker.Proofs.DispatchWalk

/-!
# What is said and what is heard

A computation speaks when it opens a dispatch, emits a notice or calls a listener. All that a round
or a dispatch says is about itself, and if the computation comes to a result, then a listener that
listens once to each kind of notice, and that nobody subscribes or releases meanwhile, has heard all
that was said: the same notices in the same order. What the notices carry by way of messages is left
out, since listeners may add to it.
-/
namespace LintBroker

namespace Notice

def bare : Notice → Notice
  | .update p _ buffer => .update p .none buffer
  | n => n

@[simp] theorem provider_bare (n : Notice) : n.bare.provider = n.provider := by cases n <;> rfl

variable {p : ProviderId} {n : Notice} {v : Value}

theorem eq_of_bare_begin (h : n.bare = .begin p v) : n = .begin p v := by
  cases n <;> first | exact h | cases h

theorem eq_of_bare_finish (h : n.bare = .finish p v) : n = .finish p v := by
  cases n <;> first | exact h | cases h

theorem eq_of_bare_update {m : Value} (h : n.bare = (Notice.update p m v).bare) :
    ∃ messages, n = .update p messages v := by
  cases n with
  | update q messages b =>
    obtain ⟨rfl, _, rfl⟩ := Notice.update.inj h
    exact ⟨messages, rfl⟩
  | _ => cases h

theorem bare_withMessage {n' : Notice} (h : n.withMessage v = .ok n') :
    n'.bare = n.bare := by
  cases n with
  | update p messages buffer =>
    obtain ⟨ms, _, rfl⟩ : ∃ ms, appendTo messages v = .ok ms ∧ .update p ms buffer = n' := by
      cases hm : appendTo messages v with
      | ok ms => exact ⟨ms, rfl, by simpa [withMessage, hm, Except.map] using h⟩
      | error f => simp [withMessage, hm, Except.map] at h
    rfl
  | _ => cases h

end Notice

theorem Script.bare_run {α ρ : Type} {perform : α → StateM Session (Except Failure ρ)} :
    ∀ (c : Script α ρ) (n : Notice) (s : Session), ((c.run perform n).run s).1.1.bare = n.bare
  | .done, _, _ => rfl
  | .fail _, _, _ => rfl
  | .act a next, n, s => bare_run (next ((perform a).run s).1) n ((perform a).run s).2
  | .append v next, n, s => by
    unfold Script.run
    cases h : n.withMessage v with
    | ok n' => exact (bare_run (next (.ok ())) n' s).trans (Notice.bare_withMessage h)
    | error f => exact bare_run (next (.error f)) n s

namespace Entry

/-- What was said for which dispatch, if the entry tells of an emission. -/
def said? : Entry → Option (Dispatch × Notice)
  | .emitted d n => some (d, n.bare)
  | _ => none

/-- What the listener heard for which dispatch, if the entry tells of that. -/
def told? (l : ListenerId) : Entry → Option (Dispatch × Notice)
  | .heard d l' n => if l' = l then some (d, n.bare) else none
  | _ => none

/-- The dispatch that was opened, if the entry tells of that. -/
def opened? : Entry → Option Dispatch
  | .dispatched d => some d
  | _ => none

/-- The dispatch that began, and its provider, if the entry tells of that. -/
def beginning? : Entry → Option (Dispatch × ProviderId)
  | .emitted d (.begin p _) => some (d, p)
  | _ => none

end Entry

def said (K : List Entry) : List (Dispatch × Notice) := K.filterMap Entry.said?

def told (l : ListenerId) (K : List Entry) : List (Dispatch × Notice) :=
  K.filterMap (Entry.told? l)

def opened (K : List Entry) : List Dispatch := K.filterMap Entry.opened?

def begunIn (K : List Entry) : List (Dispatch × ProviderId) := K.filterMap Entry.beginning?

/-- The entries that speak for a dispatch. -/
def speech (K : List Entry) : List Entry := K.filter fun e => e.speaker?.isSome

section speech
variable {K K' : List Entry} {l : ListenerId}

@[simp] theorem said_append : said (K ++ K') = said K ++ said K' := List.filterMap_append
@[simp] theorem told_append : told l (K ++ K') = told l K ++ told l K' := List.filterMap_append
@[simp] theorem opened_append : opened (K ++ K') = opened K ++ opened K' := List.filterMap_append
@[simp] theorem begunIn_append : begunIn (K ++ K') = begunIn K ++ begunIn K' :=
  List.filterMap_append
@[simp] theorem speech_append : speech (K ++ K') = speech K ++ speech K' := List.filter_append ..

theorem speech_eq_nil (h : ∀ e ∈ K, e.speaker? = none) : speech K = [] := by
  simpa [speech] using h

theorem filterMap_speech {α : Type} {f : Entry → Option α} (h : ∀ e, e.speaker? = none → f e = none) :
    (speech K).filterMap f = K.filterMap f := by
  rw [speech, List.filterMap_filter]
  congr 1
  funext e
  cases hs : e.speaker? with
  | none => simp [h e hs]
  | some d => simp

@[simp] theorem said_speech : said (speech K) = said K :=
  filterMap_speech fun e h => by cases e <;> first | rfl | cases h

@[simp] theorem told_speech : told l (speech K) = told l K :=
  filterMap_speech fun e h => by cases e <;> first | rfl | cases h

@[simp] theorem opened_speech : opened (speech K) = opened K :=
  filterMap_speech fun e h => by cases e <;> first | rfl | cases h

@[simp] theorem begunIn_speech : begunIn (speech K) = begunIn K :=
  filterMap_speech fun e h => by cases e <;> first | rfl | cases h

/-- Where nothing was said, nothing began. -/
theorem begunIn_of_said (h : said K = []) : begunIn K = [] := by
  simp only [said, begunIn, List.filterMap_eq_nil_iff] at h ⊢
  intro e he
  cases e with
  | emitted d n => cases h _ he
  | _ => rfl

theorem Entry.eq_of_opened? {e : Entry} {d : Dispatch} (h : e.opened? = some d) :
    e = .dispatched d := by
  cases e <;> simp only [Entry.opened?, reduceCtorEq, Option.some.injEq] at h
  rw [h]

theorem mem_opened_iff {d : Dispatch} : d ∈ opened K ↔ .dispatched d ∈ K := by
  simp only [opened, List.mem_filterMap]
  constructor
  · rintro ⟨e, he, hd⟩
    exact Entry.eq_of_opened? hd ▸ he
  · exact fun h => ⟨_, h, rfl⟩

end speech

namespace Session
variable {s s' s'' : Session} {K K' : List Entry} {P : Dispatch → Prop}

/-- In a stretch only dispatches of this kind were spoken for. -/
structure Account (P : Dispatch → Prop) (s s' : Session) (K : List Entry) : Prop
    extends Stretch s s' K where
  spoken : ∀ e ∈ K, ∀ d, e.speaker? = some d → P d

theorem Account.trans (h : Account P s s' K) (h' : Account P s' s'' K') :
    Account P s s'' (K ++ K') := by
  refine ⟨h.toStretch.trans h'.toStretch, fun e he => ?_⟩
  rcases List.mem_append.mp he with he | he
  · exact h.spoken e he
  · exact h'.spoken e he

theorem Account.mono {Q : Dispatch → Prop} (h : Account P s s' K) (hPQ : ∀ d, P d → Q d) :
    Account Q s s' K :=
  ⟨h.toStretch, fun e he d hd => hPQ d (h.spoken e he d hd)⟩

theorem Stretch.account_of_silent (h : Stretch s s' K) (silent : ∀ e ∈ K, e.speaker? = none) :
    Account P s s' K :=
  ⟨h, fun e he d hd => by simp [silent e he] at hd⟩

/-- A listener that listens once to each kind of notice, and that nobody subscribes or releases, has
heard what was said. -/
def Heeded (s : Session) (K : List Entry) : Prop :=
  ∀ l, s.registry.bus.Attended l → (∀ e ∈ K, ¬ e.Concerns l) → told l K = said K

theorem heeded_of_silent (silent : ∀ e ∈ K, e.speaker? = none) : s.Heeded K := by
  intro l _ _
  have none := speech_eq_nil silent
  rw [← said_speech, ← told_speech, none]
  rfl

theorem Heeded.trans (h : s.Heeded K) (first : Stretch s s' K) (h' : s'.Heeded K') :
    s.Heeded (K ++ K') := by
  intro l attended quiet
  have before : ∀ e ∈ K, ¬ e.Concerns l := fun e he => quiet e (List.mem_append_left _ he)
  have after : ∀ e ∈ K', ¬ e.Concerns l := fun e he => quiet e (List.mem_append_right _ he)
  have still : s'.registry.bus.Attended l := first.bus ▸ attended.replay before
  rw [told_append, said_append, h l attended before, h' l still after]

end Session

namespace Act
open Session
variable {α β : Type} {P Q : Dispatch → Prop} {Φ : α → List Entry → Prop}
  {Ψ : β → List Entry → Prop} {s s' : Session}

/-- Only dispatches of this kind are spoken for, and if there is a result, then what was said was
heeded, and this holds of it. -/
def Utters (P : Dispatch → Prop) (Φ : α → List Entry → Prop) (s : Session)
    (r : Except Failure α × Session) : Prop :=
  ∃ K, Account P s r.2 K ∧ ∀ a, r.1 = .ok a → s.Heeded K ∧ Φ a (speech K)

theorem utters_pure {a : α} (h : Φ a []) : Utters P Φ s (.ok a, s) := by
  refine ⟨[], (Stretch.refl s).account_of_silent (by simp), fun b hb => ?_⟩
  obtain rfl := Except.ok.inj hb
  exact ⟨heeded_of_silent (by simp), h⟩

theorem utters_error {f : Failure} : Utters P Φ s (.error f, s) :=
  ⟨[], (Stretch.refl s).account_of_silent (by simp), nofun⟩

theorem Utters.mono {r : Except Failure α × Session} {Φ' : α → List Entry → Prop}
    (h : Utters P Φ s r) (hP : ∀ d, P d → Q d) (hΦ : ∀ a S, r.1 = .ok a → Φ a S → Φ' a S) :
    Utters Q Φ' s r := by
  obtain ⟨K, account, ok⟩ := h
  exact ⟨K, account.mono hP, fun a ha => (ok a ha).imp_right (hΦ a _ ha)⟩

/-- What comes before in silence does not matter. -/
theorem Utters.after {r : Except Failure α × Session} (h : Utters P Φ s' r) (first : Silent s s') :
    Utters P Φ s r := by
  obtain ⟨K, hs, hK⟩ := first
  obtain ⟨K', account, ok⟩ := h
  refine ⟨K ++ K', (hs.account_of_silent hK).trans account, fun a ha => ?_⟩
  obtain ⟨heeded, post⟩ := ok a ha
  refine ⟨(heeded_of_silent hK).trans hs heeded, ?_⟩
  rwa [speech_append, speech_eq_nil hK, List.nil_append]

theorem utters_bind {m : Act α} {f : α → Act β} (hm : Utters P Φ s (m.exec s))
    (go : ∀ a S s', m.exec s = (.ok a, s') → Φ a S →
      Utters P (fun b S' => Ψ b (S ++ S')) s' ((f a).exec s')) :
    Utters P Ψ s ((m >>= f).exec s) := by
  obtain ⟨K, account, ok⟩ := hm
  refine exec_bind_elim (fun e s' he => ?_) fun a s' he => ?_
  · rw [he] at account
    exact ⟨K, account, nofun⟩
  · rw [he] at account ok
    obtain ⟨heeded, post⟩ := ok a rfl
    obtain ⟨K', account', ok'⟩ := go a _ s' he post
    refine ⟨K ++ K', account.trans account', fun b hb => ?_⟩
    obtain ⟨heeded', post'⟩ := ok' b hb
    exact ⟨heeded.trans account.toStretch heeded', by rwa [speech_append]⟩

theorem utters_bind_silent {m : Act α} {f : α → Act β} (hm : KeepsTo Silent m.run)
    (go : ∀ a s', m.exec s = (.ok a, s') → Utters P Ψ s' ((f a).exec s')) :
    Utters P Ψ s ((m >>= f).exec s) := by
  have silent : Silent s (m.exec s).2 := hm s
  refine exec_bind_elim (fun e s' he => ?_) fun a s' he => ?_
  · rw [he] at silent
    exact utters_error.after silent
  · rw [he] at silent
    exact (go a s' he).after silent

theorem silent_of_quiet {m : Act α} (h : KeepsTo Quiet m.run) : KeepsTo Silent m.run :=
  h.mono fun _ _ => Quiet.silent

/-! ### Emissions -/

section emission
variable {handling : Option Failure} {d : Dispatch} {l : ListenerId} {n : Notice}

/-- The session when a listener is about to do what it does on being called. -/
def atListener (s : Session) (d : Dispatch) (l : ListenerId) (n : Notice) : Session :=
  (s.noted (.delivered l n)).noted (.heard d l n)

/-- What a call comes to: nothing if the host has no such listener, and else what its script does. -/
theorem run_call : (call handling d l n).run s =
    match s.host.listeners.get? l with
    | none => ((n, .ok ()), atListener s d l n)
    | some listener =>
      let count := (s.host.deliveries.get? l).getD 0
      let out := ((listener.script count n).run (performIn handling) n).run
        ((atListener s d l n).onHost fun h => { h with deliveries := h.deliveries.put l (count + 1) })
      ((out.1.1, match out.1.2, handling with
        | .error f, some e => .error (e.during f)
        | r, _ => r), out.2) := by
  unfold call
  simp only [run_bind_exec, exec_note, run_get_bind, host_noted]
  cases s.host.listeners.get? l with
  | none => rfl
  | some listener =>
    let count := (s.host.deliveries.get? l).getD 0
    let out := ((listener.script count n).run (performIn handling) n).run
      ((atListener s d l n).onHost fun h => { h with deliveries := h.deliveries.put l (count + 1) })
    change StateT.run (m := Id) (match out.1.2, handling with
      | .error f, some e => pure (out.1.1, .error (e.during f))
      | r, _ => pure (out.1.1, r)) out.2 = ((out.1.1, match out.1.2, handling with
        | .error f, some e => .error (e.during f)
        | r, _ => r), out.2)
    cases out.1.2 with
    | ok _ => rfl
    | error f => cases handling <;> rfl

theorem account_call (handling : Option Failure) (d : Dispatch) (l : ListenerId) (n : Notice)
    (s : Session) : ∃ K, Account (· = d) s ((call handling d l n).run s).2 K ∧
    speech K = [.heard d l n] ∧ ((call handling d l n).run s).1.1.bare = n.bare := by
  let s₁ := atListener s d l n
  have heard : Account (· = d) s s₁ ([.delivered l n] ++ [.heard d l n]) := by
    refine ⟨(Stretch.noted (fun _ => rfl) s).trans (Stretch.noted (fun _ => rfl) _), ?_⟩
    intro e he d' hd
    rcases List.mem_cons.mp he with rfl | he
    · cases hd
    · obtain rfl := List.mem_singleton.mp he
      exact (Option.some.inj hd).symm
  have rest : Silent s₁ ((call handling d l n).run s).2 ∧
      ((call handling d l n).run s).1.1.bare = n.bare := by
    rw [run_call]
    cases s.host.listeners.get? l with
    | none => exact ⟨refl s₁, rfl⟩
    | some listener =>
      have performs (a : Action) : KeepsTo Silent (performIn handling a) :=
        keepsTo_during _ ((deeds_perform a).mono fun _ _ => Deeds.silent)
      have counted : Silent s₁ (s₁.onHost fun h => { h with
          deliveries := h.deliveries.put l ((s.host.deliveries.get? l).getD 0 + 1) }) :=
        silent_of_nothing rfl rfl (.refl _)
      exact ⟨IsTrans.trans _ _ _ counted (Script.keepsTo_run performs _ n _),
        Script.bare_run (listener.script _ n) n _⟩
  obtain ⟨K, hs, hK⟩ := rest.1
  refine ⟨_, heard.trans (hs.account_of_silent hK), ?_, rest.2⟩
  rw [speech_append, speech_eq_nil hK]
  rfl

/-- A delivery that comes to its end has been heard by each of the audience as often as it stands
there. -/
theorem account_deliverAll (handling : Option Failure) (d : Dispatch) (kind : NoticeKind)
    (audience : List ListenerId) (n : Notice) (s : Session) :
    let r := (deliverAll (call handling d) (reportListener kind) audience n).run s
    ∃ K, Account (· = d) s r.2 K ∧ said K = [] ∧ opened K = [] ∧
      (r.1 = .ok () → ∀ l, told l K = List.replicate (audience.count l) (d, n.bare)) := by
  induction audience generalizing n s with
  | nil => exact ⟨[], (Stretch.refl s).account_of_silent (by simp), rfl, rfl, fun _ _ => rfl⟩
  | cons l rest ih =>
    obtain ⟨K, account, heard, bare⟩ := account_call handling d l n s
    have first (l' : ListenerId) : told l' K = if l = l' then [(d, n.bare)] else [] := by
      rw [← told_speech, heard]
      by_cases hl : l = l' <;> simp [told, Entry.told?, hl]
    have nothing : said K = [] ∧ opened K = [] := by
      rw [← said_speech, ← opened_speech, heard]
      exact ⟨rfl, rfl⟩
    -- the listeners that are left go on with the notice as the first one leaves it
    have go {s₁ : Session} {K₁ : List Entry} (before : Account (· = d) s s₁ K₁)
        (spoken : speech K₁ = speech K) :
        let n' := ((call handling d l n).run s).1.1
        let r := (deliverAll (call handling d) (reportListener kind) rest n').run s₁
        ∃ K, Account (· = d) s r.2 K ∧ said K = [] ∧ opened K = [] ∧
          (r.1 = .ok () → ∀ l', told l' K = List.replicate ((l :: rest).count l') (d, n.bare)) := by
      intro n' r
      obtain ⟨K', account', hs, ho, ht⟩ := ih n' s₁
      refine ⟨K₁ ++ K', before.trans account', ?_, ?_, fun hr l' => ?_⟩
      · rw [said_append, hs, ← said_speech, spoken, said_speech, nothing.1]
        rfl
      · rw [opened_append, ho, ← opened_speech, spoken, opened_speech, nothing.2]
        rfl
      · rw [told_append, ht hr l', ← told_speech, spoken, told_speech, first l', bare]
        by_cases hl : l = l'
        · subst hl
          simp [List.replicate_succ]
        · simp [hl]
    cases hcall : (call handling d l n).run s with
    | mk answer s₁ =>
      obtain ⟨n', outcome⟩ := answer
      simp only [hcall] at account bare go
      have called : (call handling d l n).run s = pure ((n', outcome), s₁) := hcall
      simp only [deliverAll, StateT.run_bind, called, pure_bind]
      cases outcome with
      | ok _ => exact go account rfl
      | error f =>
        by_cases ho : f.isOrdinary = true
        · simp only [ho, if_true]
          obtain ⟨K', hs, hK'⟩ : Silent s₁ ((reportListener kind l f).run s₁).2 :=
            silent_of_quiet (quiet_reportFault (listenerFault kind l) f) _
          exact go (account.trans (hs.account_of_silent hK'))
            (by rw [speech_append, speech_eq_nil hK', List.append_nil])
        · simp only [ho]
          refine ⟨K, account, nothing.1, nothing.2, fun ok => ?_⟩
          cases ok

theorem utters_emit (handling : Option Failure) (d : Dispatch) (n : Notice) (s : Session) :
    Utters (· = d) (fun _ S => .emitted d n ∈ S ∧ opened S = [] ∧
      begunIn S = begunIn [.emitted d n]) s ((emit handling d n).exec s) := by
  obtain ⟨K, account, hs, ho, ht⟩ := account_deliverAll handling d n.kind
    (s.registry.bus.audience n.kind) n (s.noted (.emitted d n))
  have emitted : Account (· = d) s (s.noted (.emitted d n)) [.emitted d n] := by
    refine ⟨.noted (fun _ => rfl) s, fun e he d' hd => ?_⟩
    obtain rfl := List.mem_singleton.mp he
    exact (Option.some.inj hd).symm
  have all : (emit handling d n).exec s =
      (deliverAll (call handling d) (reportListener n.kind) (s.registry.bus.audience n.kind) n).run
        (s.noted (.emitted d n)) := rfl
  rw [all]
  refine ⟨[.emitted d n] ++ K, emitted.trans account,
    fun _ ok => ⟨fun l attended _ => ?_, ?_, ?_, ?_⟩⟩
  · have once : (s.registry.bus.audience n.kind).count l = 1 := by
      rw [Bus.audience, attended.usable]
      exact attended.once n.kind
    rw [told_append, said_append, hs, ht ok l, once]
    rfl
  · rw [speech_append]
    exact List.mem_append_left _ (List.mem_singleton_self _)
  · rw [opened_speech, opened_append, ho]
    rfl
  · rw [begunIn_speech, begunIn_append, begunIn_of_said hs, List.append_nil]

end emission

end Act

namespace Round
open Session Act
variable {s : Session} {t : TaskId} {context : EditContext} {disabled : List Value}

theorem quiet_beginNotice (p : ProviderId) (context : EditContext) :
    KeepsTo Quiet (beginNotice p context).run :=
  keepsTo_bind (Broker.quiet_scopeOf p) fun _ => keepsTo_pure _

theorem utters_openDispatch (t : TaskId) (id : RecordId) (context : EditContext) (s : Session) :
    Utters (fun d => d.round = t)
      (fun d S => opened S = [d] ∧ begunIn S = [] ∧ d.round = t ∧ d.record = id) s
      ((openDispatch t id context).exec s) := by
  let s₁ := s.onRegistry fun r => r.changeRecord id fun x => { x with counters := x.counters.next }
  have counted : Silent s s₁ := silent_of_nothing rfl rfl (.refl _)
  have told : (openDispatch t id context).exec s = (do
      let generation := (← Broker.record id).counters.latest
      let d : Dispatch := { round := t, record := id, generation, context }
      Act.note (.dispatched d)
      return d : Act Dispatch).exec s₁ := rfl
  rw [told]
  refine Utters.after (utters_bind_silent (silent_of_quiet (Broker.quiet_record id))
    fun x s₂ _ => ?_) counted
  let d : Dispatch := { round := t, record := id, generation := x.counters.latest, context }
  refine ⟨[.dispatched d], ⟨.noted (fun _ => rfl) s₂, fun e he d' hd => ?_⟩, fun a ha => ?_⟩
  · obtain rfl := List.mem_singleton.mp he
    obtain rfl := Option.some.inj hd
    rfl
  · obtain rfl := Except.ok.inj ha
    exact ⟨fun _ _ _ => rfl, rfl, rfl, rfl, rfl⟩

/-- These dispatches were opened, and began in that order. -/
structure Opens (ds : List Dispatch) (S : List Entry) : Prop where
  opened : opened S = ds
  began : (begunIn S).map Prod.fst = ds

theorem Opens.append {ds ds' : List Dispatch} {S S' : List Entry} (h : Opens ds S) (h' : Opens ds' S') :
    Opens (ds ++ ds') (S ++ S') :=
  ⟨by rw [opened_append, h.opened, h'.opened],
    by rw [begunIn_append, List.map_append, h.began, h'.began]⟩

theorem opens_nothing : Opens [] [] := ⟨rfl, rfl⟩

theorem eq_begin_of_beginNotice {s s' : Session} {p : ProviderId} {n : Notice}
    (h : (beginNotice p context).exec s = (.ok n, s')) : ∃ v, n = .begin p v := by
  rw [exec_beginNotice, Prod.mk.injEq] at h
  cases hs : s.scopeOf p with
  | error f => simp [hs, Except.map] at h
  | ok scope =>
    rw [hs] at h
    exact ⟨_, (Except.ok.inj h.1).symm⟩

theorem utters_consider (t : TaskId) (context : EditContext) (disabled : List Value) (id : RecordId)
    (s : Session) :
    Utters (fun d => d.round = t)
      (fun chosen S => Opens chosen.toList S ∧ ∀ d ∈ chosen, d.record = id) s
      ((consider t context disabled id).exec s) := by
  have nobody {s : Session} : Utters (fun d => d.round = t)
      (fun (chosen : Option Dispatch) S => Opens chosen.toList S ∧ ∀ d ∈ chosen, d.record = id)
      s (.ok none, s) := utters_pure ⟨opens_nothing, nofun⟩
  unfold consider
  refine utters_bind_silent (silent_of_quiet (Broker.quiet_record id)) fun x s₁ _ => ?_
  split
  · exact nobody
  refine utters_bind_silent (silent_of_quiet (Broker.quiet_nameOf _)) fun name s₂ _ => ?_
  split
  · exact utters_bind_silent (silent_of_quiet (quiet_trace _)) fun _ _ _ => nobody
  refine utters_bind_silent (silent_of_quiet (Gate.quiet_shouldTrigger _ _)) fun applies s₃ _ => ?_
  split
  · exact nobody
  refine utters_bind (utters_openDispatch t id context s₃) fun d S s₄ _ ⟨hS, hb, hr, hid⟩ => ?_
  refine utters_bind_silent (silent_of_quiet (quiet_beginNotice _ _)) fun n s₅ hn => ?_
  obtain ⟨v, rfl⟩ := eq_begin_of_beginNotice hn
  have emits := (utters_emit none d (.begin x.provider v) s₅).mono (Q := fun d => d.round = t)
    (fun _ h => h ▸ hr) fun _ _ _ h => h
  refine utters_bind emits fun _ S' s₆ _ ⟨_, hS', hb'⟩ => utters_pure ⟨⟨?_, ?_⟩, ?_⟩
  · simp [hS, hS']
  · rw [List.append_nil, begunIn_append, hb, hb']
    rfl
  · rintro d' ⟨⟩
    exact hid

theorem utters_considerAll (t : TaskId) (context : EditContext) (disabled : List Value)
    (ids : List RecordId) (s : Session) :
    Utters (fun d => d.round = t)
      (fun ds S => Opens ds S ∧ (ds.map Dispatch.record).Sublist ids) s
      ((considerAll t context disabled ids).exec s) := by
  induction ids generalizing s with
  | nil => exact utters_pure ⟨opens_nothing, .slnil⟩
  | cons id rest ih =>
    unfold considerAll
    refine utters_bind (utters_consider t context disabled id s) fun chosen S s₁ _ ⟨hS, hid⟩ => ?_
    refine utters_bind (ih s₁) fun others S' s₂ _ ⟨hS', hsub⟩ => utters_pure ⟨?_, ?_⟩
    · simpa using hS.append hS'
    · cases chosen with
      | none => exact hsub.cons id
      | some d =>
        obtain rfl := hid d rfl
        exact hsub.cons_cons d.record

/-- The first step of a lint opens the dispatches of its round, each for a registration in force. -/
theorem utters_start (t : TaskId) (context : EditContext) (s : Session) :
    Utters (fun d => d.round = t)
      (fun round S => ∀ ds, round = some ds →
        Opens ds S ∧ (ds.map Dispatch.record).Sublist s.registry.active.values) s
      ((start t context).exec s) := by
  let Φ (round : Option (List Dispatch)) (S : List Entry) : Prop := ∀ ds, round = some ds →
    Opens ds S ∧ (ds.map Dispatch.record).Sublist s.registry.active.values
  have nothing {s' : Session} : Utters (fun d => d.round = t) Φ s' (.ok none, s') :=
    utters_pure nofun
  unfold start
  change Utters _ Φ s _
  refine utters_bind_silent keepsTo_get fun _ s₀ h₀ => ?_
  split
  · exact nothing
  refine utters_bind_silent (silent_of_quiet quiet_ensureSettings) fun _ s₁ h₁ => ?_
  refine utters_bind_silent (silent_of_quiet (Gate.quiet_shouldLint _)) fun eligible s₂ h₂ => ?_
  split
  · exact nothing
  refine utters_bind_silent (silent_of_quiet quiet_disabledNames) fun disabled s₃ h₃ => ?_
  refine utters_bind_silent keepsTo_get fun now s₄ h₄ => ?_
  have same : now.registry = s.registry := by
    obtain ⟨rfl, rfl⟩ : now = s₃ ∧ s₄ = s₃ := by simpa [eq_comm] using h₄
    obtain rfl : s₀ = s := by simpa [eq_comm] using (Prod.ext_iff.mp h₀).2
    have q := ((quiet_of_exec quiet_ensureSettings h₁).trans
      (quiet_of_exec (Gate.quiet_shouldLint _) h₂)).trans (quiet_of_exec quiet_disabledNames h₃)
    exact q.registry
  refine utters_bind (utters_considerAll t context disabled _ s₄) fun ds S s₅ _ ⟨hS, hsub⟩ =>
    utters_pure fun ds' hds => ?_
  obtain rfl := Option.some.inj hds
  exact ⟨by simpa using hS, same ▸ hsub⟩

end Round

namespace Dispatch
open Session Act
variable {d : Dispatch} {p : ProviderId} {t : TaskId} {s : Session}

/-- A reply goes on in silence. -/
theorem silent_advance : ∀ (reply : Reply) (s : Session), Silent s ((advance p t reply).run s).2
  | .value _, s => refl s
  | .fail _, s => refl s
  | .pause _, s => refl s
  | .request _, s => silent_of_nothing rfl rfl (s.loop.advances_openRequest p t)
  | .act a next, s =>
    IsTrans.trans _ _ _ (deeds_perform a s).silent (silent_advance (next _) _)

theorem silent_ask (d : Dispatch) (p : ProviderId) : KeepsTo Silent (ask d p).run := by
  refine keepsTo_bind (silent_of_quiet (quiet_attributes p)) fun _ =>
    keepsTo_bind (keepsTo_take _) fun x => ?_
  cases x with
  | value v => exact keepsTo_throw _
  | method =>
    refine keepsTo_bind keepsTo_get fun _ => keepsTo_bind (keepsTo_expect _ _) fun _ =>
      keepsTo_bind keepsTo_get fun _ => keepsTo_bind ?_ fun _ => keepsTo_bind ?_ fun _ =>
        keepsTo_pure _
    · exact fun s => silent_of_nothing rfl rfl (.refl _)
    · exact silent_noted rfl fun _ => rfl

theorem silent_start (d : Dispatch) (p : ProviderId) (t : TaskId) (s : Session) :
    Silent s ((start d p t).run s).2 := by
  have asked : Silent s ((ask d p).exec s).2 := silent_ask d p s
  rw [start, run_bind_exec]
  cases ((ask d p).exec s).1 with
  | ok reply => exact IsTrans.trans _ _ _ asked (silent_advance reply _)
  | error f => exact asked

theorem silent_announce (d : Dispatch) (p : ProviderId) : KeepsTo Silent (announce d p).run :=
  keepsTo_bind (silent_of_quiet (Broker.quiet_nameOf p)) fun _ =>
    keepsTo_bind (silent_of_quiet (quiet_trace _)) fun _ => silent_noted rfl fun _ => rfl

theorem silent_accept (d : Dispatch) : KeepsTo Silent (accept d).run := by
  refine keepsTo_bind (silent_of_quiet (Broker.quiet_record _)) fun _ => keepsTo_bind ?_ fun _ =>
    keepsTo_bind (silent_noted rfl fun _ => rfl) fun _ => keepsTo_pure _
  exact fun s => silent_of_nothing rfl rfl (.refl _)

theorem silent_respond (d : Dispatch) (p : ProviderId) (cancelling : Bool)
    (r : Except Failure Value) : KeepsTo Silent (respond d p cancelling r).run := by
  refine keepsTo_bind (silent_noted rfl fun _ => rfl) fun _ =>
    keepsTo_bind (keepsTo_awaited (silent_of_quiet (quiet_contain _ _ _))) fun outcome =>
      keepsTo_bind (silent_accept d) fun news => ?_
  split
  · exact keepsTo_bind (silent_of_quiet (Broker.quiet_nameOf p)) fun _ =>
      keepsTo_bind (silent_of_quiet (quiet_trace _)) fun _ => keepsTo_pure _
  · split
    · exact keepsTo_pure _
    · refine keepsTo_bind (silent_of_quiet (quiet_shouldSurface d p)) fun _ => ?_
      split
      · exact keepsTo_bind (keepsTo_bind (silent_of_quiet (Broker.quiet_scopeOf p)) fun _ =>
          keepsTo_pure _) fun _ => keepsTo_pure _
      · exact keepsTo_pure _

theorem utters_deliver (d : Dispatch) (p : ProviderId) (cancelling : Bool)
    (r : Except Failure Value) (s : Session) :
    Utters (· = d) (fun _ _ => True) s ((deliver d p cancelling r).exec s) := by
  unfold deliver
  refine utters_bind_silent (silent_respond d p cancelling r) fun notice s₁ _ => ?_
  cases notice with
  | none => exact utters_pure trivial
  | some n => exact (utters_emit none d n s₁).mono (fun _ => id) fun _ _ _ _ => trivial

theorem utters_announceEnd (d : Dispatch) (p : ProviderId) (leaving : Option Failure)
    (s : Session) :
    Utters (· = d) (fun _ S => ∃ n, .emitted d n ∈ S ∧ n.mark = .finished) s
      ((announceEnd d p leaving).exec s) := by
  have quiet : KeepsTo Quiet (Round.finishNotice p d.context).run :=
    keepsTo_bind (Broker.quiet_scopeOf p) fun _ => keepsTo_pure _
  unfold announceEnd
  refine utters_bind_silent (keepsTo_during _ (silent_of_quiet quiet)) fun n s₁ he => ?_
  have finish : n.mark = .finished := by
    cases hs : s.scopeOf p with
    | error f =>
      obtain ⟨e, hd⟩ := exec_during_error leaving
        (show (Round.finishNotice p d.context).exec s = (.error f, s) by
          rw [exec_finishNotice, hs]; rfl)
      simp [hd] at he
    | ok scope =>
      have hd := exec_during_ok leaving
        (show (Round.finishNotice p d.context).exec s =
            (.ok (.finish p (d.context.pathIn scope)), s) by
          rw [exec_finishNotice, hs]; rfl)
      rw [hd, Prod.mk.injEq, Except.ok.injEq] at he
      exact he.1 ▸ rfl
  exact (utters_emit leaving d n s₁).mono (fun _ => id) fun _ _ _ h => ⟨n, h.1, finish⟩

/-- When a dispatch was concluded with success, its end was announced. -/
theorem utters_conclude (d : Dispatch) (p : ProviderId) (cancelling : Bool)
    (r : Except Failure Value) (s : Session) :
    Utters (· = d) (fun _ S => ∃ n, .emitted d n ∈ S ∧ n.mark = .finished) s
      ((conclude d p cancelling r).exec s) := by
  obtain ⟨K, account, ok⟩ := utters_deliver d p cancelling r s
  let result := ((deliver d p cancelling r).exec s).1
  obtain ⟨K', account', ok'⟩ := utters_announceEnd d p (failure? result)
    ((deliver d p cancelling r).exec s).2
  unfold conclude
  rw [exec_bind_ok (exec_attempt _)]
  refine exec_bind_elim (fun e s₁ he => ?_) fun _ s₁ he => ?_
  · rw [he] at account'
    exact ⟨K ++ K', account.trans account', nofun⟩
  · rw [he] at account' ok'
    obtain ⟨heeded', n, hn, finish⟩ := ok' () rfl
    refine ⟨K ++ K', account.trans account', fun a ha => ?_⟩
    have heeded := (ok a ha).1
    refine ⟨heeded.trans account.toStretch heeded', n, ?_, finish⟩
    rw [speech_append]
    exact List.mem_append_right _ hn

end Dispatch
end LintBroker

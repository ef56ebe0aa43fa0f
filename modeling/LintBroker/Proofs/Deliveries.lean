import LintBroker.Proofs.Tickets

/-!
# One emission, call by call

An emission hands its notice to those who were listening when it started, and to each of them once,
in order, whatever they do meanwhile: subscribe others, end subscriptions, dispose the bus, fail, or
emit notices of their own. The emission that came to an end is shown as the list of its calls. What
it writes is, call after call, that the listener is called, what is written while it is busy, and
the report of its failure if it failed.
-/
namespace LintBroker

namespace Notice
variable {n n' : Notice} {v : Value}

/-- A notice with more messages behind its own. Only an update with a list of messages takes any. -/
def withMessages (n : Notice) (more : List Value) : Notice :=
  match n with
  | .update p (.list messages) buffer => .update p (.list (messages ++ more)) buffer
  | n => n

@[simp] theorem withMessages_nil (n : Notice) : n.withMessages [] = n := by
  unfold withMessages
  split
  · rw [List.append_nil]
  · rfl

@[simp] theorem withMessages_withMessages (n : Notice) (more others : List Value) :
    (n.withMessages more).withMessages others = n.withMessages (more ++ others) := by
  cases n with
  | update p messages buffer => cases messages <;> simp [withMessages]
  | begin p path => rfl
  | finish p path => rfl

/-- What a listener appends stands behind what was there. -/
theorem eq_withMessages_of_withMessage (h : n.withMessage v = .ok n') : n' = n.withMessages [v] := by
  cases n with
  | update p messages buffer =>
    cases messages <;> simp_all [withMessage, withMessages, appendTo, Except.map]
  | begin p path => cases h
  | finish p path => cases h

theorem exists_withMessages_of_run {α ρ σ : Type} {perform : α → StateT σ Option (Except Failure ρ)}
    {script : Script α ρ} {r : Except Failure Unit} {x x' : σ}
    (h : (script.run perform n).run x = some ((n', r), x')) : ∃ more, n' = n.withMessages more := by
  induction script generalizing n x with
  | done =>
    obtain ⟨⟨rfl, -⟩, -⟩ := by simpa [Script.run] using h
    exact ⟨[], (n.withMessages_nil).symm⟩
  | fail f =>
    obtain ⟨⟨rfl, -⟩, -⟩ := by simpa [Script.run] using h
    exact ⟨[], (n.withMessages_nil).symm⟩
  | act a next ih =>
    rw [Script.run, StateT.run_bind] at h
    obtain ⟨⟨r', x₁⟩, -, h⟩ := Option.bind_eq_some_iff.mp h
    exact ih r' h
  | append v next ih =>
    rw [Script.run] at h
    cases hv : n.withMessage v with
    | ok n₁ =>
      rw [hv] at h
      obtain ⟨more, rfl⟩ := ih (.ok ()) h
      rw [eq_withMessages_of_withMessage hv]
      exact ⟨[v] ++ more, withMessages_withMessages _ _ _⟩
    | error f =>
      rw [hv] at h
      exact ih (.error f) h

end Notice

namespace Exchange
variable {listeners : BusListeners} {fuel : Nat} {kind : NoticeKind} {x x' : Exchange}
  {n n' : Notice}

/-! ### What is written stays -/

def faultLines (summary : String) (f : Failure) : List BusEntry :=
  .debug (f.summaryLine summary) :: f.report.map .trace

@[simp] theorem journal_note (x : Exchange) (e : BusEntry) :
    (x.note e).journal.toList = x.journal.toList ++ [e] := Array.toList_push

theorem journal_foldl_note (lines : List String) (x : Exchange) :
    (lines.foldl (fun x line => x.note (.trace line)) x).journal.toList =
      x.journal.toList ++ lines.map .trace := by
  induction lines generalizing x with
  | nil => simp
  | cons line rest ih => rw [List.foldl_cons, ih, journal_note, List.append_assoc]; rfl

theorem journal_reportFault (x : Exchange) (summary : String) (f : Failure) :
    (x.reportFault summary f).journal.toList = x.journal.toList ++ faultLines summary f := by
  rw [reportFault, journal_foldl_note, journal_note, List.append_assoc]
  rfl

/-- A step writes behind what stands in the journal. -/
def Appends {α : Type} (m : Step α) : Prop :=
  ∀ ⦃x a x'⦄, m.run x = some (a, x') → x.journal.toList <+: x'.journal.toList

section appends
variable {α β : Type}

theorem appends_pure (a : α) : Appends (pure a) := by
  intro x b x' h
  obtain ⟨-, rfl⟩ := Prod.mk.inj (Option.some.inj h)
  exact List.prefix_refl _

theorem Appends.bind {m : Step α} {f : α → Step β} (hm : Appends m) (hf : ∀ a, Appends (f a)) :
    Appends (m >>= f) := by
  intro x b x' h
  rw [StateT.run_bind] at h
  obtain ⟨⟨a, x₁⟩, first, second⟩ := Option.bind_eq_some_iff.mp h
  exact (hm first).trans (hf a second)

theorem appends_modify {f : Exchange → Exchange}
    (h : ∀ x, x.journal.toList <+: (f x).journal.toList) : Appends (modify f) := by
  intro x a x' run
  obtain ⟨-, rfl⟩ := Prod.mk.inj (Option.some.inj run)
  exact h x

theorem appends_get : Appends get := by
  intro x a x' run
  obtain ⟨-, rfl⟩ := Prod.mk.inj (Option.some.inj run)
  exact List.prefix_refl _

theorem appends_run {α ρ : Type} {perform : α → Step (Except Failure ρ)}
    (h : ∀ a, Appends (perform a)) (script : Script α ρ) (n : Notice) :
    Appends (script.run perform n) := by
  induction script generalizing n with
  | done => exact appends_pure _
  | fail f => exact appends_pure _
  | act a next ih => exact (h a).bind fun r => ih r n
  | append v next ih =>
    rw [Script.run]
    split
    · exact ih _ _
    · exact ih _ _

theorem appends_deliverAll {call : ListenerId → Notice → Step (Notice × Except Failure Unit)}
    {report : ListenerId → Failure → Step Unit} (hc : ∀ l n, Appends (call l n))
    (hr : ∀ l f, Appends (report l f)) (ls : List ListenerId) (n : Notice) :
    Appends (deliverAll call report ls n) := by
  induction ls generalizing n with
  | nil => exact appends_pure _
  | cons l rest ih =>
    refine (hc l n).bind ?_
    rintro ⟨n', f | _⟩
    · show Appends (if f.isOrdinary then _ else _)
      split
      · exact (hr l f).bind fun _ => ih n'
      · exact appends_pure _
    · exact ih n'

end appends

theorem appends_modify_of_eq {f : Exchange → Exchange} (h : ∀ x, (f x).journal = x.journal) :
    Appends (modify f) :=
  appends_modify fun x => (h x).symm ▸ List.prefix_refl _

theorem appends_performWith {emit : Notice → Step (Except Failure Unit)}
    (h : ∀ n, Appends (emit n)) (a : BusAction) : Appends (performWith emit a) := by
  have changing : ∀ f : Exchange → Exchange, (∀ x, (f x).journal = x.journal) →
      Appends (do modify f; return (.ok () : Except Failure Unit)) :=
    fun f hf => (appends_modify_of_eq hf).bind fun _ => appends_pure _
  cases a with
  | subscribe s token => exact changing _ fun _ => rfl
  | unsubscribe token =>
    refine changing _ fun x => ?_
    unfold unsubscribe
    split <;> rfl
  | emit n => exact h n
  | dispose => exact changing _ fun _ => rfl
  | raise f => exact appends_pure _

theorem appends_callWith {emit : Notice → Step (Except Failure Unit)} (h : ∀ n, Appends (emit n))
    {l : ListenerId} {r : Notice × Except Failure Unit}
    (run : (callWith listeners emit l n).run x = some (r, x')) :
    x.journal.toList ++ [.delivered l n] <+: x'.journal.toList := by
  let y := x.note (.delivered l n)
  let z := { y with calls := y.calls.put l ((y.calls.get? l).getD 0 + 1) }
  have behind : ((listeners l ((y.calls.get? l).getD 0) n).run (performWith emit) n).run z =
    some (r, x') := run
  have := appends_run (appends_performWith h) _ _ behind
  rwa [journal_note] at this

theorem appends_emit (listeners : BusListeners) (fuel : Nat) (n : Notice) :
    Appends (emit listeners fuel n) := by
  induction fuel generalizing n with
  | zero =>
    intro x a x' h
    cases h
  | succ fuel ih =>
    refine appends_get.bind fun y => appends_deliverAll (fun l n => ?_) (fun l f => ?_) _ n
    · intro x r x' run
      exact (List.prefix_append _ _).trans (appends_callWith ih run)
    · exact appends_modify fun x => ⟨_, (journal_reportFault x _ f).symm⟩

/-! ### The calls of an emission -/

/-- One call of a listener: what it was handed and what it left of it, how it ended, and the
exchange before and after. -/
structure Delivery where
  listener : ListenerId
  handed : Notice
  left : Notice
  outcome : Except Failure Unit
  before : Exchange
  after : Exchange

namespace Delivery
variable {c : Delivery} {calls : List Delivery}

/-- The call was made: it was written down and counted, and what the listener does on its call of that
count went this way. -/
def Made (listeners : BusListeners) (fuel : Nat) (c : Delivery) : Prop :=
  let count := (c.before.calls.get? c.listener).getD 0
  ((listeners c.listener count c.handed).run (performWith (emit listeners fuel)) c.handed).run
    { c.before with
      journal := c.before.journal.push (.delivered c.listener c.handed)
      calls := c.before.calls.put c.listener (count + 1) } = some ((c.left, c.outcome), c.after)

theorem made_iff : c.Made listeners fuel ↔
    (callWith listeners (emit listeners fuel) c.listener c.handed).run c.before =
      some ((c.left, c.outcome), c.after) := Iff.rfl

/-- If the call failed, its failure is one that may be contained. -/
def Contained (c : Delivery) : Prop := ∀ f, c.outcome = .error f → f.isOrdinary = true

/-- The exchange after the call, and after the report of its failure if it failed. -/
def next (kind : NoticeKind) (c : Delivery) : Exchange :=
  match c.outcome with
  | .ok () => c.after
  | .error f => c.after.reportFault (listenerFault kind c.listener) f

/-- What was written while the listener was busy. -/
def meanwhile (c : Delivery) : List BusEntry :=
  c.after.journal.toList.drop (c.before.journal.toList.length + 1)

def faults (kind : NoticeKind) (c : Delivery) : List BusEntry :=
  match c.outcome with
  | .ok () => []
  | .error f => faultLines (listenerFault kind c.listener) f

def entries (kind : NoticeKind) (c : Delivery) : List BusEntry :=
  .delivered c.listener c.handed :: c.meanwhile ++ c.faults kind

/-- The calls follow one another: each starts where the one before has ended, with the notice that
it left. -/
def Linked (kind : NoticeKind) : List Delivery → Exchange → Notice → Exchange → Prop
  | [], x, _, x' => x = x'
  | c :: rest, x, n, x' => c.before = x ∧ c.handed = n ∧ Linked kind rest (c.next kind) c.left x'

theorem journal_next (h : c.Made listeners fuel) (kind : NoticeKind) :
    (c.next kind).journal.toList = c.before.journal.toList ++ c.entries kind := by
  have called := appends_callWith (appends_emit listeners fuel) (made_iff.mp h)
  have after : c.after.journal.toList =
      c.before.journal.toList ++ .delivered c.listener c.handed :: c.meanwhile := by
    obtain ⟨rest, hrest⟩ := called
    have : c.meanwhile = rest := by
      rw [meanwhile, ← hrest, List.drop_append_of_le_length (by simp)]
      simp
    rw [this, ← hrest, List.append_assoc]
    rfl
  unfold next entries faults
  split
  · rw [after, List.append_nil]
  · rw [journal_reportFault, after, List.append_assoc]

theorem exists_left (h : c.Made listeners fuel) : ∃ more, c.left = c.handed.withMessages more :=
  Notice.exists_withMessages_of_run (x := _) h

/-- What is written by calls that follow one another. -/
theorem Linked.journal (h : Linked kind calls x n x') (made : ∀ c ∈ calls, c.Made listeners fuel) :
    x'.journal.toList = x.journal.toList ++ calls.flatMap (entries kind) := by
  induction calls generalizing x n with
  | nil =>
    obtain rfl : x = x' := h
    simp
  | cons c rest ih =>
    obtain ⟨rfl, rfl, h⟩ := h
    rw [ih h fun d hd => made d (List.mem_cons_of_mem _ hd),
      journal_next (made c List.mem_cons_self) kind, List.flatMap_cons, List.append_assoc]

/-- All are handed the same notice, with what the listeners before them have appended. -/
theorem Linked.handed (h : Linked kind calls x n x') (made : ∀ c ∈ calls, c.Made listeners fuel) :
    ∀ c ∈ calls, ∃ more, c.handed = n.withMessages more := by
  induction calls generalizing x n with
  | nil => exact fun c hc => absurd hc List.not_mem_nil
  | cons c rest ih =>
    obtain ⟨rfl, rfl, h⟩ := h
    obtain ⟨more, left⟩ := exists_left (made c List.mem_cons_self)
    intro d hd
    rcases List.mem_cons.mp hd with rfl | hd
    · exact ⟨[], (Notice.withMessages_nil _).symm⟩
    · obtain ⟨others, h'⟩ := ih h (fun d hd => made d (List.mem_cons_of_mem _ hd)) d hd
      exact ⟨more ++ others, by rw [h', left, Notice.withMessages_withMessages]⟩

end Delivery

/-- Delivery to these listeners, given the kind that the reports of their failures name. -/
abbrev delivery (listeners : BusListeners) (fuel : Nat) (kind : NoticeKind) (ls : List ListenerId)
    (n : Notice) : Step (Except Failure Unit) :=
  deliverAll (callWith listeners (emit listeners fuel))
    (fun l f => modify fun x => x.reportFault (listenerFault kind l) f) ls n

theorem delivery_cons_iff {l : ListenerId} {rest : List ListenerId} :
    (delivery listeners fuel kind (l :: rest) n).run x = some (.ok (), x') ↔
      ∃ c : Delivery, c.listener = l ∧ c.handed = n ∧ c.before = x ∧ c.Made listeners fuel ∧
        c.Contained ∧
        (delivery listeners fuel kind rest c.left).run (c.next kind) = some (.ok (), x') := by
  unfold delivery
  rw [deliverAll, StateT.run_bind]
  constructor
  · intro h
    obtain ⟨⟨⟨left, outcome⟩, after⟩, made, h⟩ := Option.bind_eq_some_iff.mp h
    refine ⟨⟨l, n, left, outcome, x, after⟩, rfl, rfl, rfl, Delivery.made_iff.mpr made, ?_⟩
    cases outcome with
    | ok _ => exact ⟨(fun f hf => nomatch hf), h⟩
    | error f =>
      by_cases ordinary : f.isOrdinary = true
      · simp only [ordinary, if_true] at h
        exact ⟨fun g hg => (Except.error.inj hg) ▸ ordinary, h⟩
      · simp only [ordinary, Bool.false_eq_true, if_false] at h
        cases h
  · rintro ⟨⟨l, n, left, outcome, x, after⟩, rfl, rfl, rfl, made, contained, h⟩
    refine Option.bind_eq_some_iff.mpr ⟨_, Delivery.made_iff.mp made, ?_⟩
    cases outcome with
    | ok _ => exact h
    | error f =>
      simp only [contained f rfl, if_true]
      exact h

/-- Delivery that comes to an end is a list of linked calls, one to each listener. -/
theorem delivery_iff {ls : List ListenerId} :
    (delivery listeners fuel kind ls n).run x = some (.ok (), x') ↔
      ∃ calls : List Delivery, calls.map Delivery.listener = ls ∧
        (∀ c ∈ calls, c.Made listeners fuel ∧ c.Contained) ∧
        Delivery.Linked kind calls x n x' := by
  induction ls generalizing x n with
  | nil =>
    constructor
    · intro h
      obtain ⟨-, rfl⟩ := Prod.mk.inj (Option.some.inj h)
      exact ⟨[], rfl, fun c hc => absurd hc List.not_mem_nil, rfl⟩
    · rintro ⟨calls, names, -, linked⟩
      obtain rfl := List.map_eq_nil_iff.mp names
      obtain rfl : x = x' := linked
      rfl
  | cons l rest ih =>
    rw [delivery_cons_iff]
    constructor
    · rintro ⟨c, rfl, rfl, rfl, made, contained, h⟩
      obtain ⟨calls, names, all, linked⟩ := ih.mp h
      refine ⟨c :: calls, by rw [List.map_cons, names], ?_, rfl, rfl, linked⟩
      exact List.forall_mem_cons.mpr ⟨⟨made, contained⟩, all⟩
    · rintro ⟨calls, names, all, linked⟩
      obtain ⟨c, calls, rfl, rfl, rfl⟩ := List.map_eq_cons_iff.mp names
      obtain ⟨rfl, rfl, linked⟩ := linked
      obtain ⟨⟨made, contained⟩, all⟩ := List.forall_mem_cons.mp all
      exact ⟨c, rfl, rfl, rfl, made, contained, ih.mpr ⟨calls, rfl, all, linked⟩⟩

/-- The course of an emission that came to an end without a failure of its own. -/
structure Emission (listeners : BusListeners) (fuel : Nat) (n : Notice) (x : Exchange)
    (calls : List Delivery) (x' : Exchange) : Prop where
  /-- One call to each entry of the list as it was at the start, in order, and no other call. -/
  reached : calls.map Delivery.listener = x.bus.listeners n.kind
  /-- The calls are what the listeners do. -/
  made : ∀ c ∈ calls, c.Made listeners fuel
  contained : ∀ c ∈ calls, c.Contained
  /-- Nothing but the calls and the reports of their failures happens from start to end. -/
  linked : Delivery.Linked n.kind calls x n x'
  /-- All are handed the notice emitted, with what was appended to it before. -/
  handed : ∀ c ∈ calls, ∃ more, c.handed = n.withMessages more
  /-- Each call is written down once, in order, and the calls that failed are the ones reported. -/
  journal : x'.journal.toList = x.journal.toList ++ calls.flatMap (Delivery.entries n.kind)

/-- On a bus that is not disposed an emission calls those who were listening to its kind when it
started, each entry of the list once and in order, whatever any of them does to the bus meanwhile,
and it ends without a failure exactly if each of these calls ends, and none with a failure that may
not be contained. Their failures are reported in order, and nothing else is. -/
theorem emit_ok_iff_emission (live : x.bus.disposed = false) :
    (emit listeners (fuel + 1) n).run x = some (.ok (), x') ↔
      ∃ calls, Emission listeners fuel n x calls x' := by
  have start : (emit listeners (fuel + 1) n).run x =
      (delivery listeners fuel n.kind (x.bus.listeners n.kind) n).run x := by
    have all : x.bus.audience n.kind = x.bus.listeners n.kind := by simp [Bus.audience, live]
    rw [← all]
    rfl
  rw [start, delivery_iff]
  constructor
  · rintro ⟨calls, reached, all, linked⟩
    have made := fun c hc => (all c hc).1
    exact ⟨calls, reached, made, fun c hc => (all c hc).2, linked, linked.handed made,
      linked.journal made⟩
  · rintro ⟨calls, e⟩
    exact ⟨calls, e.reached, fun c hc => ⟨e.made c hc, e.contained c hc⟩, e.linked⟩

/-- Listeners of whom the first brings in another, ends the subscription of the second, disposes the
bus and fails. -/
def meddling : BusListeners := fun l _ _ =>
  if l = "first" then
    .act (.subscribe ⟨.begin, "late"⟩ "third") fun _ => .act (.unsubscribe "second") fun _ =>
      .act .dispose fun _ => .fail (.ofText .runtime "had enough")
  else .done

/-- Two listeners for the beginning of providers. -/
def attended : Exchange :=
  after [.subscribe ⟨.begin, "first"⟩ "first", .subscribe ⟨.begin, "second"⟩ "second"]

/-- The second listener is called although the first has ended its subscription and disposed the bus,
and the late one is not. -/
theorem emission_despite_meddling : attended.bus.disposed = false ∧
    ∃ x' calls, Emission meddling 0 (.begin "p" .none) attended calls x' ∧
      calls.map Delivery.listener = ["first", "second"] := by
  obtain ⟨calls, e⟩ := (emit_ok_iff_emission (x := attended) rfl).mp
    (show (emit meddling 1 (.begin "p" .none)).run attended = some (.ok (), _) from rfl)
  exact ⟨rfl, _, calls, e, e.reached⟩

end Exchange
end LintBroker

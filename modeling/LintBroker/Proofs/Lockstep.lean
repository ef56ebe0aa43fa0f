import LintBroker.Proofs.Computation

/-!
# Computations in step

Two computations keep in step for a relation of sessions if they take related sessions to related
ones and come to the same result, or to results that agree in some other way. What is made of parts in
step is in step, and a computation may read from its session whatever related sessions agree on.
-/
namespace LintBroker

/-- From related sessions the computations come to results that agree, and to related sessions. -/
def InStep (S : Session → Session → Prop) {α : Type} (m m' : StateM Session α)
    (Q : α → α → Prop := Eq) : Prop :=
  ∀ s s', S s s' → Q (m.run s).1 (m'.run s').1 ∧ S (m.run s).2 (m'.run s').2

/-- Results that agree: the same failure, or results of which something holds. -/
inductive Agree {α : Type} (Q : α → α → Prop) : Except Failure α → Except Failure α → Prop
  | ok {a a' : α} (h : Q a a') : Agree Q (.ok a) (.ok a')
  | error (f : Failure) : Agree Q (.error f) (.error f)

theorem Agree.of_eq {α : Type} {Q : α → α → Prop} (hQ : ∀ a, Q a a) {r r' : Except Failure α}
    (h : r = r') : Agree Q r r' := by
  subst h
  cases r with
  | ok a => exact .ok (hQ a)
  | error f => exact .error f

namespace InStep
variable {S : Session → Session → Prop} {α β : Type} {Q : α → α → Prop} {R : β → β → Prop}

theorem pure (a : α) : InStep S (Pure.pure a) (Pure.pure a) := fun _ _ h => ⟨rfl, h⟩

theorem bind_of {m m' : StateM Session α} {f f' : α → StateM Session β} (h : InStep S m m' Q)
    (hf : ∀ a a', Q a a' → InStep S (f a) (f' a') R) : InStep S (m >>= f) (m' >>= f') R := by
  intro s s' hs
  obtain ⟨agree, related⟩ := h s s' hs
  exact hf _ _ agree _ _ related

theorem bind {m m' : StateM Session α} {f f' : α → StateM Session β} (h : InStep S m m')
    (hf : ∀ a, InStep S (f a) (f' a) R) : InStep S (m >>= f) (m' >>= f') R :=
  h.bind_of fun a _ same => same ▸ hf a

theorem get {k k' : Session → StateM Session α} (h : ∀ s s', S s s' → InStep S (k s) (k' s') Q) :
    InStep S (MonadState.get >>= k) (MonadState.get >>= k') Q := fun s s' hs => h s s' hs s s' hs

theorem modify {f f' : Session → Session} (h : ∀ s s', S s s' → S (f s) (f' s')) :
    InStep S (modify f) (modify f') := fun s s' hs => ⟨rfl, h s s' hs⟩

end InStep

namespace Act
variable {S : Session → Session → Prop} {α β : Type}

theorem inStep_pure (a : α) : InStep S (pure a : Act α).run (pure a : Act α).run :=
  fun _ _ h => ⟨rfl, h⟩

theorem inStep_throw (f : Failure) : InStep S (throw f : Act α).run (throw f : Act α).run :=
  fun _ _ h => ⟨rfl, h⟩

theorem inStep_take (r : Except Failure α) : InStep S (take r).run (take r).run :=
  fun _ _ h => ⟨rfl, h⟩

theorem inStep_expect (x : Option α) (key : String) :
    InStep S (expect x key).run (expect x key).run := by
  cases x with
  | none => exact inStep_throw _
  | some a => exact inStep_pure a

/-- What a table holds under a key, in two tables that hold related things. -/
theorem inStep_expect_of {Q : α → α → Prop} {x x' : Option α} (h : Option.Rel Q x x')
    (key : String) : InStep S (expect x key).run (expect x' key).run (Agree Q) := by
  cases h with
  | none => exact fun _ _ hs => ⟨.error _, hs⟩
  | some h => exact fun _ _ hs => ⟨.ok h, hs⟩

theorem inStep_modify {f f' : Session → Session} (h : ∀ s s', S s s' → S (f s) (f' s')) :
    InStep S (modify f : Act PUnit).run (modify f' : Act PUnit).run :=
  fun s s' hs => ⟨rfl, h s s' hs⟩

theorem inStep_bind_of {m m' : Act α} {f f' : α → Act β} {Q : α → α → Prop}
    {R : Except Failure β → Except Failure β → Prop} (h : InStep S m.run m'.run (Agree Q))
    (hf : ∀ a a', Q a a' → InStep S (f a).run (f' a').run R) (hR : ∀ e, R (.error e) (.error e)) :
    InStep S (m >>= f).run (m' >>= f').run R := by
  intro s s' hs
  obtain ⟨agree, related⟩ : Agree Q (m.exec s).1 (m'.exec s').1 ∧ S (m.exec s).2 (m'.exec s').2 :=
    h s s' hs
  change R ((m >>= f).exec s).1 ((m' >>= f').exec s').1 ∧
    S ((m >>= f).exec s).2 ((m' >>= f').exec s').2
  rw [exec_bind, exec_bind]
  rcases hm : m.exec s with ⟨r, s₁⟩
  rcases hm' : m'.exec s' with ⟨r', s₁'⟩
  rw [hm, hm'] at agree related
  cases agree with
  | ok ha => exact hf _ _ ha s₁ s₁' related
  | error e => exact ⟨hR e, related⟩

/-- What comes next is done with the same in both. -/
theorem inStep_bind_to {m m' : Act α} {f f' : α → Act β}
    {R : Except Failure β → Except Failure β → Prop} (h : InStep S m.run m'.run)
    (hf : ∀ a, InStep S (f a).run (f' a).run R) (hR : ∀ e, R (.error e) (.error e)) :
    InStep S (m >>= f).run (m' >>= f').run R :=
  inStep_bind_of (Q := Eq) (fun s s' hs => ⟨.of_eq (fun _ => rfl) (h s s' hs).1, (h s s' hs).2⟩)
    (fun a _ same => same ▸ hf a) hR

theorem inStep_bind {m m' : Act α} {f f' : α → Act β} (h : InStep S m.run m'.run)
    (hf : ∀ a, InStep S (f a).run (f' a).run) : InStep S (m >>= f).run (m' >>= f').run :=
  inStep_bind_to h hf fun _ => rfl

/-- What comes next may use what related sessions agree on. -/
theorem inStep_get {k k' : Session → Act α} {Q : Except Failure α → Except Failure α → Prop}
    (h : ∀ s s', S s s' → InStep S (k s).run (k' s').run Q) :
    InStep S (get >>= k).run (get >>= k').run Q :=
  fun s s' hs => h s s' hs s s' hs

theorem inStep_attempt {m m' : Act α} (h : InStep S m.run m'.run) :
    InStep S (attempt m).run (attempt m').run := by
  intro s s' hs
  obtain ⟨same, related⟩ := h s s' hs
  exact ⟨congrArg Except.ok same, related⟩

theorem inStep_awaited {m m' : Act α} (h : InStep S m.run m'.run) :
    InStep S m.awaited.run m'.awaited.run := by
  intro s s' hs
  obtain ⟨same, related⟩ := h s s' hs
  exact ⟨congrArg (Except.mapError Failure.leaving) same, related⟩

theorem inStep_during {m m' : Act α} (earlier : Option Failure) (h : InStep S m.run m'.run) :
    InStep S (during earlier m).run (during earlier m').run := by
  refine inStep_bind (inStep_attempt h) fun r => ?_
  split
  · exact inStep_throw _
  · exact inStep_take _

theorem inStep_forM {f : α → Act PUnit} (h : ∀ a, InStep S (f a).run (f a).run) (xs : List α) :
    InStep S (xs.forM f).run (xs.forM f).run := by
  induction xs with
  | nil => exact inStep_pure _
  | cons x xs ih => exact inStep_bind (h x) fun _ => ih

end Act
end LintBroker

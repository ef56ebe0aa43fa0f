import LintBroker.Session.Run
import Mathlib

/-!
# Computations on a session

What a computation made of steps does is what its steps do, one after the other. A computation
*keeps to* a relation if each run of it takes a session to a related one; for a preorder this needs
to be known of its steps alone. No statement here looks at what is computed.
-/
namespace LintBroker

namespace Session

def history (s : Session) : List Entry := s.journal.toList

def noted (s : Session) (e : Entry) : Session := { s with journal := s.journal.push e }

def onHost (s : Session) (change : Host → Host) : Session := { s with host := change s.host }

def onRegistry (s : Session) (change : Registry → Registry) : Session :=
  { s with registry := change s.registry }

variable (s : Session) (e : Entry)

@[simp] theorem history_noted : (s.noted e).history = s.history ++ [e] := Array.toList_push
@[simp] theorem host_noted : (s.noted e).host = s.host := rfl
@[simp] theorem registry_noted : (s.noted e).registry = s.registry := rfl
@[simp] theorem loop_noted : (s.noted e).loop = s.loop := rfl

@[simp] theorem history_onHost (f : Host → Host) : (s.onHost f).history = s.history := rfl
@[simp] theorem host_onHost (f : Host → Host) : (s.onHost f).host = f s.host := rfl
@[simp] theorem registry_onHost (f : Host → Host) : (s.onHost f).registry = s.registry := rfl
@[simp] theorem loop_onHost (f : Host → Host) : (s.onHost f).loop = s.loop := rfl

@[simp] theorem history_onRegistry (f : Registry → Registry) :
    (s.onRegistry f).history = s.history := rfl
@[simp] theorem host_onRegistry (f : Registry → Registry) : (s.onRegistry f).host = s.host := rfl
@[simp] theorem registry_onRegistry (f : Registry → Registry) :
    (s.onRegistry f).registry = f s.registry := rfl
@[simp] theorem loop_onRegistry (f : Registry → Registry) : (s.onRegistry f).loop = s.loop := rfl

@[simp] theorem history_onLoop (f : Loop → Loop) : (s.onLoop f).history = s.history := rfl
@[simp] theorem host_onLoop (f : Loop → Loop) : (s.onLoop f).host = s.host := rfl
@[simp] theorem registry_onLoop (f : Loop → Loop) : (s.onLoop f).registry = s.registry := rfl
@[simp] theorem loop_onLoop (f : Loop → Loop) : (s.onLoop f).loop = f s.loop := rfl

end Session

def IgnoreRule.relist (r : IgnoreRule) (change : List Value → List Value) : IgnoreRule :=
  { r with listed := change r.listed }

/-- What an action turns to. Those that turn to nothing raise, pass, or perform other actions. -/
inductive Action.Concern
  | registry | bus | tasks | settings | host | nothing

def Action.concern : Action → Action.Concern
  | .add .. | .remove _ | .has _ | .recordOf _ | .recordFields _ | .dispose => .registry
  | .subscribe .. | .unsubscribe _ => .bus
  | .lint .. | .resolve .. | .fail .. | .withdraw .. | .cancel _ => .tasks
  | .setUp | .setSetting .. | .unsetSetting _ | .getSetting _ => .settings
  | .openContext .. | .setVariable .. | .changeSurface .. | .setAttribute ..
  | .deleteAttribute .. | .ignorePath _ | .noticePath _ => .host
  | .raise _ | .pass | .batch _ => .nothing

/-- What an action may change of the host, its providers apart. -/
structure Furniture where
  surfaces : Table SurfaceId Surface
  ignoreRule : Option IgnoreRule
  environment : Setting.Environment
  contexts : Table String EditContext
  subscriptions : Table String Subscription

/-- A change of furniture that leaves the surfaces alone, and the rule for ignored paths but for
what it lists. -/
structure Furniture.Movable (f : Furniture → Furniture) : Prop where
  surfaces : ∀ x, (f x).surfaces = x.surfaces
  ignoreRule : ∃ change, ∀ x, (f x).ignoreRule = x.ignoreRule.map (·.relist change)

/-- A change of furniture that leaves the surfaces and the rule for ignored paths alone. -/
theorem Furniture.Movable.of_kept {f : Furniture → Furniture}
    (surfaces : ∀ x, (f x).surfaces = x.surfaces) (ignoreRule : ∀ x, (f x).ignoreRule = x.ignoreRule) :
    Movable f :=
  ⟨surfaces, id, fun x => by rw [ignoreRule]; exact Option.map_id'.symm⟩

namespace Host

def furniture (h : Host) : Furniture where
  surfaces := h.surfaces
  ignoreRule := h.ignoreRule
  environment := h.environment
  contexts := h.contexts
  subscriptions := h.subscriptions

def refurnish (h : Host) (f : Furniture → Furniture) : Host :=
  let x := f h.furniture
  { h with
    surfaces := x.surfaces
    ignoreRule := x.ignoreRule
    environment := x.environment
    contexts := x.contexts
    subscriptions := x.subscriptions }

end Host

/-- Whatever comes out of the computation, it takes a session to a related one. -/
def KeepsTo (R : Session → Session → Prop) {α : Type} (m : StateM Session α) : Prop :=
  ∀ s, R s (m.run s).2

namespace KeepsTo
variable {R : Session → Session → Prop} {α β : Type}

theorem mono {Q : Session → Session → Prop} {m : StateM Session α} (h : KeepsTo R m)
    (hRQ : ∀ s s', R s s' → Q s s') : KeepsTo Q m := fun s => hRQ _ _ (h s)

variable [IsPreorder Session R]

theorem pure (a : α) : KeepsTo R (Pure.pure a) := fun s => refl s

theorem bind {m : StateM Session α} {f : α → StateM Session β} (h : KeepsTo R m)
    (hf : ∀ a, KeepsTo R (f a)) : KeepsTo R (m >>= f) :=
  fun s => IsTrans.trans _ _ _ (h s) (hf _ _)

end KeepsTo

namespace Act
variable {α β : Type} {s s' : Session}

/-- Runs a computation: its result, and the session after it. -/
def exec (m : Act α) (s : Session) : Except Failure α × Session := m.run.run s

@[simp] theorem exec_pure (a : α) : (pure a : Act α).exec s = (.ok a, s) := rfl
@[simp] theorem exec_throw (f : Failure) : (throw f : Act α).exec s = (.error f, s) := rfl
@[simp] theorem exec_get : (get : Act Session).exec s = (.ok s, s) := rfl
@[simp] theorem exec_modify (f : Session → Session) :
    (modify f : Act PUnit).exec s = (.ok (), f s) := rfl
@[simp] theorem exec_take (r : Except Failure α) : (take r).exec s = (r, s) := rfl
@[simp] theorem exec_note (e : Entry) : (note e).exec s = (.ok (), s.noted e) := rfl
@[simp] theorem exec_debug (text : String) :
    (debug text).exec s = (.ok (), s.noted (.debug text)) := rfl
@[simp] theorem exec_trace (text : String) :
    (trace text).exec s = (.ok (), s.noted (.trace text)) := rfl
@[simp] theorem exec_modifyHost (f : Host → Host) :
    (modifyHost f).exec s = (.ok (), s.onHost f) := rfl
@[simp] theorem exec_modifyRegistry (f : Registry → Registry) :
    (modifyRegistry f).exec s = (.ok (), s.onRegistry f) := rfl
@[simp] theorem exec_modifyLoop (f : Loop → Loop) :
    (modifyLoop f).exec s = (.ok (), s.onLoop f) := rfl
@[simp] theorem exec_attempt (m : Act α) :
    (attempt m).exec s = (.ok (m.exec s).1, (m.exec s).2) := rfl
@[simp] theorem exec_awaited (m : Act α) :
    m.awaited.exec s = ((m.exec s).1.mapError Failure.leaving, (m.exec s).2) := rfl

theorem exec_bind (m : Act α) (f : α → Act β) :
    (m >>= f).exec s =
      match m.exec s with
      | (.ok a, s') => (f a).exec s'
      | (.error e, s') => (.error e, s') := by
  change ExceptT.bindCont f (m s).1 (m s).2 = _
  unfold exec
  cases h : m s with
  | mk r s' =>
    cases r <;> simp [ExceptT.bindCont, ExceptT.run, StateT.run, h]
    all_goals rfl

/-- A computation comes to a value or to a failure. -/
theorem exec_cases (m : Act α) (s : Session) :
    (∃ a s', m.exec s = (.ok a, s')) ∨ ∃ e s', m.exec s = (.error e, s') := by
  cases h : m.exec s with
  | mk r s' =>
    cases r with
    | ok a => exact .inl ⟨a, s', rfl⟩
    | error e => exact .inr ⟨e, s', rfl⟩

/-- What follows a computation goes on from its result and from the session after it. -/
theorem run_bind_exec (m : Act α) (k : Except Failure α → StateM Session β) (s : Session) :
    (m.run >>= k).run s = (k (m.exec s).1).run (m.exec s).2 := rfl

theorem run_get_bind (k : Session → StateM Session β) (s : Session) :
    ((get : StateM Session Session) >>= k).run s = (k s).run s := rfl

theorem exec_bind_ok {m : Act α} {f : α → Act β} {a : α} (h : m.exec s = (.ok a, s')) :
    (m >>= f).exec s = (f a).exec s' := by
  rw [exec_bind, h]

theorem exec_bind_error {m : Act α} {f : α → Act β} {e : Failure} (h : m.exec s = (.error e, s')) :
    (m >>= f).exec s = (.error e, s') := by
  rw [exec_bind, h]

@[simp] theorem exec_throw_bind (e : Failure) (f : α → Act β) :
    (throw e >>= f).exec s = (.error e, s) := rfl

@[simp] theorem exec_map (f : α → β) (m : Act α) :
    (f <$> m).exec s = ((m.exec s).1.map f, (m.exec s).2) := by
  rw [map_eq_pure_bind, exec_bind]
  match m.exec s with
  | (.ok _, _) => rfl
  | (.error _, _) => rfl

theorem exec_during_ok {m : Act α} {a : α} (earlier : Option Failure)
    (h : m.exec s = (.ok a, s')) : (during earlier m).exec s = (.ok a, s') := by
  rw [during, exec_bind, exec_attempt, h]
  rfl

theorem exec_during_error {m : Act α} {e : Failure} (earlier : Option Failure)
    (h : m.exec s = (.error e, s')) : ∃ e', (during earlier m).exec s = (.error e', s') := by
  rw [during, exec_bind, exec_attempt, h]
  cases earlier with
  | none => exact ⟨e, rfl⟩
  | some f => exact ⟨f.during e, rfl⟩

/-- Writing lines does not fail. -/
theorem exec_forM_lines {write : String → Act PUnit} (h : ∀ x s, ((write x).exec s).1 = .ok ())
    (lines : List String) (s : Session) : ((lines.forM write).exec s).1 = .ok () := by
  induction lines generalizing s with
  | nil => rfl
  | cons x lines ih =>
    obtain ⟨s', he⟩ : ∃ s', (write x).exec s = (.ok (), s') := ⟨_, Prod.ext (h x s) rfl⟩
    exact (congrArg Prod.fst (exec_bind_ok he)).trans (ih s')

/-- Writing a report does not fail. -/
theorem exec_reportFault (summary : String) (f : Failure) :
    ((reportFault summary f).exec s).1 = .ok () :=
  exec_forM_lines (fun _ _ => rfl) f.report _

/-- What holds of a computation that stops at its first part, and of all that may come next, holds
of the whole. -/
theorem exec_bind_elim {P : Except Failure β × Session → Prop} {m : Act α} {f : α → Act β}
    (stop : ∀ e s', m.exec s = (.error e, s') → P (.error e, s'))
    (go : ∀ a s', m.exec s = (.ok a, s') → P ((f a).exec s')) : P ((m >>= f).exec s) := by
  match h : m.exec s with
  | (.ok a, s') => exact exec_bind_ok h ▸ go a s' h
  | (.error e, s') => exact exec_bind_error h ▸ stop e s' h

/-- After a computation that only reads: what holds of the session that it leaves as it is, and of
what comes next, holds of the whole. -/
theorem exec_bind_read {P : Session → Prop} {m : Act α} {f : α → Act β} {r : Except Failure α}
    (h : m.exec s = (r, s)) (stop : P s) (go : ∀ a, r = .ok a → P ((f a).exec s).2) :
    P ((m >>= f).exec s).2 := by
  cases r with
  | ok a =>
    rw [exec_bind_ok h]
    exact go a rfl
  | error e =>
    rw [exec_bind_error h]
    exact stop

@[simp] theorem exec_expect (x : Option α) (key : String) :
    (expect x key).exec s =
      match x with
      | some a => (.ok a, s)
      | none => (.error (Setting.missing key), s) := by
  cases x <;> rfl

section keeps
variable {R : Session → Session → Prop}

theorem keepsTo_attempt {m : Act α} (h : KeepsTo R m.run) : KeepsTo R (attempt m).run := h

theorem keepsTo_awaited {m : Act α} (h : KeepsTo R m.run) : KeepsTo R m.awaited.run := h

variable [IsPreorder Session R]

theorem keepsTo_pure (a : α) : KeepsTo R (pure a : Act α).run := fun s => refl s

theorem keepsTo_throw (f : Failure) : KeepsTo R (throw f : Act α).run := fun s => refl s

theorem keepsTo_get : KeepsTo R (get : Act Session).run := fun s => refl s

theorem keepsTo_take (r : Except Failure α) : KeepsTo R (take r).run := fun s => refl s

theorem keepsTo_expect (x : Option α) (key : String) : KeepsTo R (expect x key).run := by
  cases x with
  | none => exact keepsTo_throw _
  | some a => exact keepsTo_pure a

theorem keepsTo_bind {m : Act α} {f : α → Act β} (h : KeepsTo R m.run)
    (hf : ∀ a, KeepsTo R (f a).run) : KeepsTo R (m >>= f).run := by
  intro s
  have hm := h s
  change R s ((m >>= f).exec s).2
  rw [exec_bind]
  change R s (m.exec s).2 at hm
  match hr : m.exec s with
  | (.ok a, s') => exact IsTrans.trans _ _ _ (by simpa [hr] using hm) (hf a s')
  | (.error e, s') => simpa [hr] using hm

theorem keepsTo_during {m : Act α} (earlier : Option Failure) (h : KeepsTo R m.run) :
    KeepsTo R (during earlier m).run := by
  refine keepsTo_bind (keepsTo_attempt h) fun r => ?_
  split
  · exact keepsTo_throw _
  · exact keepsTo_take _

theorem keepsTo_forM {f : α → Act PUnit} (h : ∀ a, KeepsTo R (f a).run) (xs : List α) :
    KeepsTo R (xs.forM f).run := by
  induction xs with
  | nil => exact keepsTo_pure _
  | cons x xs ih => exact keepsTo_bind (h x) fun _ => ih

end keeps
end Act

/-- Arrays whose entries are related in pairs have the same length. -/
theorem Array.size_eq_of_rel {α : Type} {R : α → α → Prop} {xs ys : Array α}
    (h : ∀ i : Nat, Option.Rel R xs[i]? ys[i]?) : xs.size = ys.size := by
  have none_iff (i : Nat) : xs[i]? = none ↔ ys[i]? = none := by
    have hi := h i
    generalize xs[i]? = x, ys[i]? = y at hi
    cases hi <;> simp
  have first := (none_iff xs.size).mp (by simp)
  have second := (none_iff ys.size).mpr (by simp)
  rw [Array.getElem?_eq_none_iff] at first second
  omega

end LintBroker

import LintBroker.Service.Hub
import Mathlib.Data.List.Induction

/-!
# What hubs have been asked and have answered

The past of a yard tells what its classes, arguments and kept services must be: the latest class
registered under a name, all arguments given for a service, and the service last answered. And what a
computation on a yard comes to is told once for each of them, so that nothing later opens one.
-/
namespace LintBroker.Service

variable {C : Type}

namespace Event

/-- What an event makes of the class registered under a name. -/
def registration [Catalogue C] (name : String) (found : Option C) : Event C → Option C
  | .registered m c => if m = name then some c else found
  | .reset => (Catalogue.defaults : Table String C).get? name
  | _ => found

/-- The keywords and values given for a service of a hub, if the event tells of that. -/
def given (hub name : String) : Event C → List (String × Value)
  | .updated g m args => if g = hub ∧ m = name then args.rows else []
  | _ => []

/-- The service that a request of a hub was answered with, if the event tells of that. -/
def success? (hub name : String) : Event C → Option BuiltId
  | .answered g m (.ok id) => if g = hub ∧ m = name then some id else none
  | _ => none

/-- The service that is asked for, with its hub, if the event tells of that. -/
def asks? : Event C → Option (String × String)
  | .asked g m => some (g, m)
  | _ => none

/-- What an event makes of the services that are being built. -/
def underway (xs : List (String × String)) : Event C → List (String × String)
  | .building g m .. => (g, m) :: xs
  | .answered g m _ => xs.erase (g, m)
  | _ => xs

end Event

/-- The class registered under a name: the latest since the classes were last reset, or the default.
-/
def classIn [Catalogue C] (P : List (Event C)) (name : String) : Option C :=
  P.foldl (Event.registration name) ((Catalogue.defaults : Table String C).get? name)

/-- All keywords and values given for a service of a hub, in order. -/
def givenIn (P : List (Event C)) (hub name : String) : List (String × Value) :=
  P.flatMap (Event.given hub name)

/-- The services that requests of a hub were answered with, in order. -/
def successes (P : List (Event C)) (hub name : String) : List BuiltId :=
  P.filterMap (Event.success? hub name)

/-- The service that a request of a hub was last answered with. -/
def keptIn (P : List (Event C)) (hub name : String) : Option BuiltId :=
  (successes P hub name).getLast?

/-- No service is asked for while it is being built, those at the start included. -/
def Grounded (xs : List (String × String)) : List (Event C) → Prop
  | [] => True
  | e :: P => (∀ x ∈ e.asks?, x ∉ xs) ∧ Grounded (e.underway xs) P

instance decidableGrounded : (xs : List (String × String)) → (P : List (Event C)) →
    Decidable (Grounded xs P)
  | _, [] => .isTrue trivial
  | xs, e :: P =>
    have := decidableGrounded (e.underway xs) P
    inferInstanceAs (Decidable ((∀ x ∈ e.asks?, x ∉ xs) ∧ Grounded (e.underway xs) P))

/-- The event that must follow a request: the answer, if the hub keeps the service, or else its
building, by the class registered and from all arguments given so far. -/
def replyTo [Catalogue C] (P : List (Event C)) (hub name : String) : Event C :=
  match keptIn P hub name, classIn P name with
  | some id, _ => .answered hub name (.ok id)
  | none, some c => .building hub name c (.ofList (givenIn P hub name))
  | none, none => .answered hub name (.error (Work.unknown name))

/-- Of the rows of a key that are written, the last counts. -/
theorem Table.get?_ofList {κ α : Type} [DecidableEq κ] (rows : List (κ × α)) (k : κ) :
    (Table.ofList rows).get? k = (rows.reverse.find? fun r => r.1 = k).map Prod.snd := by
  induction rows using List.reverseRecOn with
  | nil => rfl
  | append_singleton rows r ih =>
    rw [Table.ofList, List.foldl_append, ← Table.ofList, List.foldl_cons, List.foldl_nil,
      Table.get?_put, ih, List.reverse_append, List.reverse_singleton, List.singleton_append,
      List.find?_cons]
    by_cases hr : r.1 = k <;> simp [hr]

/-- An event of a past that grew by one is the new one, or was there before. -/
theorem concat_eq_append_cons {α : Type} {P A B : List α} {e x : α} :
    P ++ [e] = A ++ x :: B ↔ (P = A ∧ e = x ∧ B = []) ∨ ∃ B', B = B' ++ [e] ∧ P = A ++ x :: B' := by
  constructor
  · intro hP
    rcases List.eq_nil_or_concat B with rfl | ⟨B', e', rfl⟩
    · obtain ⟨rfl, he⟩ := List.append_inj' hP rfl
      exact .inl ⟨rfl, List.singleton_inj.mp he, rfl⟩
    · rw [List.concat_eq_append, ← List.cons_append, ← List.append_assoc] at hP
      obtain ⟨rfl, he⟩ := List.append_inj' hP rfl
      exact .inr ⟨B', by simp [List.singleton_inj.mp he], rfl⟩
  · rintro (⟨rfl, rfl, rfl⟩ | ⟨B', rfl, rfl⟩) <;> simp

section past
variable {P K : List (Event C)} {h n : String} {xs : List (String × String)}

@[simp] theorem classIn_concat [Catalogue C] (P : List (Event C)) (e : Event C) (n : String) :
    classIn (P ++ [e]) n = e.registration n (classIn P n) := by simp [classIn]

@[simp] theorem givenIn_concat (P : List (Event C)) (e : Event C) (h n : String) :
    givenIn (P ++ [e]) h n = givenIn P h n ++ e.given h n := by simp [givenIn]

@[simp] theorem successes_append (P K : List (Event C)) (h n : String) :
    successes (P ++ K) h n = successes P h n ++ successes K h n := List.filterMap_append

theorem keptIn_concat (P : List (Event C)) (e : Event C) (h n : String) :
    keptIn (P ++ [e]) h n = (e.success? h n).or (keptIn P h n) := by
  rw [keptIn, successes_append]
  cases he : e.success? h n with
  | none => simp [successes, he, keptIn]
  | some id => simp [successes, he]

theorem keptIn_concat_of_none {e : Event C} (he : e.success? h n = none) :
    keptIn (P ++ [e]) h n = keptIn P h n := by rw [keptIn_concat, he, Option.none_or]

theorem keptIn_answered (P : List (Event C)) (h n : String) (id : BuiltId) :
    keptIn (P ++ [.answered h n (.ok id)]) h n = some id := by
  simp [keptIn_concat, Event.success?]

theorem eq_of_success? {e : Event C} {id : BuiltId} (he : e.success? h n = some id) :
    e = .answered h n (.ok id) := by
  unfold Event.success? at he
  split at he
  · split at he
    · rename_i both
      obtain ⟨rfl, rfl⟩ := both
      rw [Option.some.inj he]
    · cases he
  · cases he

/-- Nothing is kept that was never answered. -/
theorem keptIn_append_of_unanswered (unanswered : ∀ r, .answered h n r ∉ K) :
    keptIn (P ++ K) h n = keptIn P h n := by
  have none : successes K h n = [] := by
    refine List.filterMap_eq_nil_iff.mpr fun e he => ?_
    cases hs : e.success? h n with
    | none => rfl
    | some id => exact absurd (eq_of_success? hs ▸ he) (unanswered _)
  rw [keptIn, successes_append, none, List.append_nil, keptIn]

theorem grounded_append : Grounded xs (P ++ K) ↔
    Grounded xs P ∧ Grounded (P.foldl Event.underway xs) K := by
  induction P generalizing xs with
  | nil => simp [Grounded]
  | cons e P ih => simp only [List.cons_append, Grounded, ih, List.foldl_cons, and_assoc]

theorem mem_underway {x : String × String} (hx : x ∈ xs)
    (unanswered : ∀ r, .answered x.1 x.2 r ∉ P) : x ∈ P.foldl Event.underway xs := by
  induction P generalizing xs with
  | nil => exact hx
  | cons e P ih =>
    refine ih ?_ fun r hr => unanswered r (List.mem_cons_of_mem e hr)
    cases e with
    | building g m c args => exact List.mem_cons_of_mem _ hx
    | answered g m r =>
      have other : x ≠ (g, m) := by
        rintro rfl
        exact unanswered r List.mem_cons_self
      exact (List.mem_erase_of_ne other).mpr hx
    | _ => exact hx

/-- Whoever is answered was asked for before. -/
def AsksFirst (K : List (Event C)) : Prop :=
  ∀ h n r A B, K = A ++ .answered h n r :: B → .asked h n ∈ A

theorem asksFirst_nil : AsksFirst ([] : List (Event C)) := by
  intro h n r A B hK
  simp at hK

theorem AsksFirst.concat {e : Event C} (hK : AsksFirst K)
    (he : ∀ h n r, e = .answered h n r → .asked h n ∈ K) : AsksFirst (K ++ [e]) := by
  intro h n r A B hAB
  obtain ⟨rfl, rfl, -⟩ | ⟨B', -, rfl⟩ := concat_eq_append_cons.mp hAB
  · exact he h n r rfl
  · exact hK h n r A B' rfl

theorem AsksFirst.append {L : List (Event C)} (hK : AsksFirst K) (hL : AsksFirst L) :
    AsksFirst (K ++ L) := by
  intro h n r A B hAB
  rcases List.append_eq_append_iff.mp hAB with ⟨D, rfl, hD⟩ | ⟨D, hD, hB⟩
  · exact List.mem_append_right _ (hL h n r D B hD)
  · cases D with
    | nil => exact absurd (hL h n r [] B (by simpa using hB.symm)) List.not_mem_nil
    | cons e D =>
      obtain ⟨rfl, rfl⟩ := List.cons.inj hB
      exact hK h n r A D hD

theorem AsksFirst.of_append {L : List (Event C)} (h : AsksFirst (K ++ L)) : AsksFirst K := by
  rintro g m r A B rfl
  exact h g m r A (B ++ L) (by simp)

/-- A service that is being built is not asked for, and so it is not answered. -/
theorem unanswered_of_grounded (asks : AsksFirst K) (grounded : Grounded xs K) (hx : (h, n) ∈ xs)
    (r : Except Failure BuiltId) : .answered h n r ∉ K := by
  induction K using List.reverseRecOn generalizing r with
  | nil => exact List.not_mem_nil
  | append_singleton K e ih =>
    have before := ih asks.of_append (grounded_append.mp grounded).1
    rw [List.mem_append, List.mem_singleton]
    rintro (hr | rfl)
    · exact before r hr
    · obtain ⟨A, B, rfl⟩ := List.append_of_mem (asks h n r K [] rfl)
      have unasked := (grounded_append.mp (grounded_append.mp grounded).1).2.1 (h, n) rfl
      exact unasked (mem_underway hx fun r hr => before r (List.mem_append_left _ hr))

end past

-- Whoever names a fact about the past of a whole run should not thereby compute the run.
attribute [irreducible] Grounded

/-! ### What computations come to -/

namespace Yard
variable [Catalogue C]

def history (y : Yard C) : List (Event C) := y.past.toList

def hub (y : Yard C) (name : String) : Hub := (y.hubs.get? name).getD {}

def noted (y : Yard C) (e : Event C) : Yard C := { y with past := y.past.push e }

def said (y : Yard C) (line : String) : Yard C := { y with journal := y.journal.push line }

def onHub (y : Yard C) (name : String) (change : Hub → Hub) : Yard C :=
  { y with hubs := y.hubs.put name (change (y.hub name)) }

/-- The yard after a service was built and kept. -/
def keeping (y : Yard C) (hub name : String) (b : Built C) : Yard C :=
  onHub { y with built := y.built.push b } hub fun g => { g with kept := g.kept.put name y.built.size }

variable (y : Yard C)

@[simp] theorem history_noted (e : Event C) : (y.noted e).history = y.history ++ [e] := by
  simp [history, noted]

@[simp] theorem template_noted (e : Event C) : (y.noted e).template = y.template := rfl

@[simp] theorem hub_noted (e : Event C) (h : String) : (y.noted e).hub h = y.hub h := rfl

@[simp] theorem hub_onHub (g h : String) (change : Hub → Hub) :
    (y.onHub g change).hub h = if g = h then change (y.hub h) else y.hub h := by
  unfold onHub hub
  rw [Table.get?_put]
  split
  · rename_i same
    subst same
    rfl
  · rfl

end Yard

namespace Work
variable [Catalogue C] {α β : Type} {y y' : Yard C}

/-- Runs a computation: its result, and the yard after it. -/
def exec (m : Work α C) (y : Yard C) : Except Failure α × Yard C := m.run.run y

theorem exec_bind (m : Work α C) (f : α → Work β C) :
    exec (m >>= f) y =
      match exec m y with
      | (.ok a, y') => exec (f a) y'
      | (.error e, y') => (.error e, y') := by
  change ExceptT.bindCont f (m y).1 (m y).2 = _
  unfold exec
  cases h : m y with
  | mk r y' =>
    cases r <;> simp [ExceptT.bindCont, ExceptT.run, StateT.run, h]
    all_goals rfl

@[simp] theorem exec_pure (a : α) : exec (pure a : Work α C) y = (.ok a, y) := rfl
@[simp] theorem exec_throw (f : Failure) : exec (throw f : Work α C) y = (.error f, y) := rfl
@[simp] theorem exec_get : exec (get : Work (Yard C) C) y = (.ok y, y) := rfl
@[simp] theorem exec_modify (f : Yard C → Yard C) :
    exec (modify f : Work PUnit C) y = (.ok (), f y) := rfl
@[simp] theorem exec_note (e : Event C) : exec (note e) y = (.ok (), y.noted e) := rfl
@[simp] theorem exec_debug (line : String) : exec (debug line) y = (.ok (), y.said line) := rfl
@[simp] theorem exec_take (r : Except Failure α) : exec (take r) y = (r, y) := rfl
@[simp] theorem exec_hub (h : String) : exec (hub h) y = (.ok (y.hub h), y) := rfl
@[simp] theorem exec_changeHub (h : String) (change : Hub → Hub) :
    exec (changeHub h change) y = (.ok (), y.onHub h change) := rfl

@[simp] theorem exec_attempt (m : Work α C) :
    exec (attempt m) y = (.ok (exec m y).1, (exec m y).2) := rfl

theorem exec_register (name : String) (c : C) : exec (register name c) y =
    (.ok (), { y with kinds := y.kinds.put name c }.noted (.registered name c)) := rfl

theorem exec_reset : exec (reset : Work Unit C) y =
    (.ok (), { y with kinds := Catalogue.defaults }.noted .reset) := rfl

theorem exec_updateArguments (h n : String) (args : Arguments) :
    exec (updateArguments h n args) y = (.ok (), (y.onHub h fun g =>
      { g with arguments := g.arguments.put n (((g.arguments.get? n).getD ∅).merge args) }).noted
        (.updated h n args)) := rfl

theorem exec_kindOf (n : String) : exec (kindOf n) y =
    match y.kinds.get? n with
    | some c => (.ok c, y)
    | none => (.error (unknown n), y) := by
  simp only [kindOf, exec_bind]
  show (match exec (match y.kinds.get? n with
    | some k => (pure k : Work C C)
    | none => throw (unknown n)) y with | r => r) = _
  cases y.kinds.get? n <;> rfl

section ask
variable (call : Call C → Work (Option BuiltId) C) (ask : String → String → Work BuiltId C)

theorem exec_follow_say (line : String) (next : Routine C α) :
    exec (follow call (.say line next)) y = exec (follow call next) (y.said line) := by
  rw [follow, exec_bind]
  rfl

theorem exec_follow_call (c : Call C) (next : Except Failure (Option BuiltId) → Routine C α) :
    exec (follow call (.call c next)) y =
      exec (follow call (next (exec (call c) y).1)) (exec (call c) y).2 := by
  rw [follow, exec_bind, exec_attempt]

theorem exec_perform_get (h n : String) : exec (perform ask (.get h n)) y =
    ((exec (ask h n) y).1.map some, (exec (ask h n) y).2) := by
  rw [perform, exec_bind]
  match exec (ask h n) y with
  | (.ok _, _) => rfl
  | (.error _, _) => rfl

theorem exec_build_of_unknown {h n : String} (hn : y.kinds.get? n = none) :
    exec (build call h n) y = (.error (unknown n), y) := by
  rw [build, exec_bind, exec_kindOf, hn]

/-- A service is built and set up by its class, and then kept. -/
theorem exec_build {h n : String} {c : C} {args : Arguments} (hn : y.kinds.get? n = some c)
    (ha : ((y.hub h).arguments.get? n).getD ∅ = args) : exec (build call h n) y =
      match exec (follow call (Catalogue.construct y.template
          (y.noted (.building h n c args)).history h c args)) (y.noted (.building h n c args)) with
      | (.error e, y₁) => (.error e, y₁)
      | (.ok made, y₁) =>
        let y₂ := y₁.said ("Created " ++ Text.quoted n ++ " service (" ++ Catalogue.label c ++ ")")
        match exec (follow call (Catalogue.setUp y₂.history h { made with kind := c, args })) y₂ with
        | (.error e, y₃) => (.error e, y₃)
        | (.ok ready, y₃) => (.ok y₃.built.size, y₃.keeping h n { ready with kind := c, args }) := by
  subst ha
  rw [build, exec_bind, exec_kindOf, hn]
  simp only [exec_bind, exec_hub, exec_note, exec_get, exec_debug, exec_modify, exec_changeHub,
    exec_pure, Yard.history, Yard.keeping, Yard.template_noted]
  rcases exec (follow call _) (y.noted _) with ⟨_ | made, y₁⟩
  · rfl
  · simp only
    rcases exec (follow call _) (y₁.said _) with ⟨_ | ready, y₃⟩ <;> rfl

theorem exec_service (h n : String) (fuel : Nat) : exec (service h (fuel + 1) n) y =
    match (y.hub h).kept.get? n with
    | some id => (.ok id, (y.noted (.asked h n)).noted (.answered h n (.ok id)))
    | none =>
      let out := exec (build (perform fun g m => service g fuel m) h n) (y.noted (.asked h n))
      (out.1, out.2.noted (.answered h n out.1)) := by
  rw [service]
  simp only [exec_bind, exec_note, exec_hub, Yard.hub_noted]
  cases (y.hub h).kept.get? n with
  | some id => rfl
  | none => rfl

end ask

end Work
end LintBroker.Service

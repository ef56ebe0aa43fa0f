import LintBroker.Proofs.Hubs

/-!
# What is called, and what comes of it

A *transcript* tells what happens when calls are made one after the other: the calls themselves,
those that classes make while services are being built, and what requests are answered with. It is
told from the calls, and each call of a transcript is made where those before it have led. What a
yard takes down is that.
-/
namespace LintBroker.Service
open Work

variable {C α : Type} [Catalogue C]

/-- Calls are made with so much fuel for the services that they ask for. -/
def Work.making (fuel : Nat) : Call C → Work (Option BuiltId) C := perform fun h n => service h fuel n

/-- What happens while a routine is followed: what each of its calls brings. -/
def Routine.transcript (call : Call C → Work (Option BuiltId) C)
    (brings : Call C → Yard C → List (Event C)) : Routine C α → Yard C → List (Event C)
  | .done _, _ => []
  | .fail _, _ => []
  | .say line next, y => next.transcript call brings (y.said line)
  | .call c next, y =>
    brings c y ++ (next (exec (call c) y).1).transcript call brings (exec (call c) y).2

namespace Yard

/-- What happens while a service is built: what its class does, first to construct it and then, if
that succeeded, to set it up. -/
def buildingTranscript (call : Call C → Work (Option BuiltId) C)
    (brings : Call C → Yard C → List (Event C)) (hub name : String) (y : Yard C) : List (Event C) :=
  match y.kinds.get? name with
  | none => []
  | some kind =>
    let args := ((y.hub hub).arguments.get? name).getD ∅
    let begun := y.noted (.building hub name kind args)
    let construct := Catalogue.construct y.template begun.history hub kind args
    .building hub name kind args :: construct.transcript call brings begun ++
      match exec (follow call construct) begun with
      | (.error _, _) => []
      | (.ok made, y₁) =>
        let y₂ := y₁.said
          ("Created " ++ Text.quoted name ++ " service (" ++ Catalogue.label kind ++ ")")
        (Catalogue.setUp y₂.history hub { made with kind, args }).transcript call brings y₂

/-- What happens upon a call. A request at the greatest depth is refused unheard. -/
def callTranscript (fuel : Nat) (c : Call C) (y : Yard C) : List (Event C) :=
  match fuel, c with
  | _, .register name kind => [.registered name kind]
  | _, .reset => [.reset]
  | _, .update hub name args => [.updated hub name args]
  | 0, .get _ _ => []
  | fuel + 1, .get hub name =>
    let building := match (y.hub hub).kept.get? name with
      | some _ => []
      | none => (y.noted (.asked hub name)).buildingTranscript (making fuel) (callTranscript fuel)
          hub name
    .asked hub name :: building ++ [.answered hub name (exec (service hub (fuel + 1) name) y).1]

/-- What happens when calls are made one after the other, whatever each of them comes to. -/
def transcript (depth : Nat) : Yard C → List (Call C) → List (Event C)
  | _, [] => []
  | y, c :: calls => y.callTranscript depth c ++ transcript depth (exec (making depth c) y).2 calls

/-- The yard after calls were made one after the other, whatever each of them came to. -/
def after (depth : Nat) (y : Yard C) (calls : List (Call C)) : Yard C :=
  calls.foldl (fun y c => (exec (making depth c) y).2) y

/-! ### What is taken down -/

section
variable {call : Call C → Work (Option BuiltId) C} {brings : Call C → Yard C → List (Event C)}
  (told : ∀ c (y : Yard C), (exec (call c) y).2.history = y.history ++ brings c y)
include told

theorem history_follow (routine : Routine C α) (y : Yard C) :
    (exec (follow call routine) y).2.history = y.history ++ routine.transcript call brings y := by
  induction routine generalizing y with
  | done a => exact (List.append_nil _).symm
  | fail f => exact (List.append_nil _).symm
  | say line next ih =>
    rw [exec_follow_say, ih]
    rfl
  | call c next ih => rw [exec_follow_call, ih, told, List.append_assoc, Routine.transcript]

theorem history_build (hub name : String) (y : Yard C) :
    (exec (build call hub name) y).2.history =
      y.history ++ y.buildingTranscript call brings hub name := by
  cases hn : y.kinds.get? name with
  | none =>
    rw [exec_build_of_unknown call hn]
    simp only [buildingTranscript, hn, List.append_nil]
  | some kind =>
    rw [exec_build call hn rfl]
    simp only [buildingTranscript, hn]
    generalize ((y.hub hub).arguments.get? name).getD ∅ = args
    have begins := history_noted y (.building hub name kind args)
    generalize y.noted (.building hub name kind args) = begun at begins ⊢
    generalize (Catalogue.construct y.template _ hub kind args : Routine C Content) = construct
    have constructs := history_follow told construct begun
    rcases hmade : exec (follow call construct) begun with ⟨f | made, y₁⟩
    · rw [hmade, begins] at constructs
      rw [constructs]
      simp
    · rw [hmade, begins] at constructs
      dsimp only
      generalize he : y₁.said _ = y₂
      have same : y₂.history = y₁.history := he ▸ rfl
      generalize (Catalogue.setUp y₂.history hub { made with kind, args } : Routine C Content) = setUp
      have setsUp := history_follow told setUp y₂
      rw [same, constructs] at setsUp
      rcases hready : exec (follow call setUp) y₂ with ⟨f | ready, y₃⟩ <;>
      · rw [hready] at setsUp
        refine Eq.trans setsUp ?_
        simp

end

theorem history_perform {ask : String → String → Work BuiltId C} {fuel : Nat} (y : Yard C)
    (asks : ∀ hub name, (exec (ask hub name) y).2.history =
      y.history ++ y.callTranscript fuel (.get hub name)) (c : Call C) :
    (exec (perform ask c) y).2.history = y.history ++ y.callTranscript fuel c := by
  cases c with
  | register name kind => cases fuel <;> exact history_noted _ _
  | reset => cases fuel <;> exact history_noted _ _
  | update hub name args => cases fuel <;> exact history_noted _ _
  | get hub name =>
    rw [exec_perform_get]
    exact asks hub name

theorem history_call (fuel : Nat) (c : Call C) (y : Yard C) :
    (exec (making fuel c) y).2.history = y.history ++ y.callTranscript fuel c := by
  induction fuel generalizing c y with
  | zero => exact history_perform y (fun _ _ => (List.append_nil _).symm) c
  | succ fuel ih =>
    refine history_perform y (fun hub name => ?_) c
    rw [callTranscript, exec_service]
    cases (y.hub hub).kept.get? name with
    | some id => simp
    | none =>
      have builds := history_build ih hub name (y.noted (.asked hub name))
      simp only [making] at builds ⊢
      rw [history_noted, builds, history_noted]
      simp

/-- What happens when calls are made is taken down. -/
theorem history_after (depth : Nat) (y : Yard C) (calls : List (Call C)) :
    (y.after depth calls).history = y.history ++ y.transcript depth calls := by
  induction calls generalizing y with
  | nil => exact (List.append_nil _).symm
  | cons c calls ih =>
    show (after depth _ calls).history = _
    rw [ih, history_call, List.append_assoc, transcript]

end Yard
end LintBroker.Service

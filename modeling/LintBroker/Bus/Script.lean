import LintBroker.Bus
import LintBroker.Value.Compare

/-! # What listeners do, and delivery to them

A *script* is what a listener does when it is called: a tree of actions in which what comes next may
depend on how the last action went. Delivery calls the listeners one after the other; a listener
that fails in an ordinary way is reported and does not keep the others from being called. -/
namespace LintBroker

/-- A list with one more item at its end; nothing else can be appended to. -/
def appendTo (v item : Value) : Except Failure Value :=
  match v with
  | .list items => .ok (.list (items ++ [item]))
  | v => .error (.noAttribute v.typeName "append")

/-- What a listener does when it is called. Appending changes the messages of the notice. -/
inductive Script (α ρ : Type)
  | done
  | fail (f : Failure)
  | act (a : α) (next : Except Failure ρ → Script α ρ)
  | append (v : Value) (next : Except Failure Unit → Script α ρ)

namespace Script
variable {α ρ : Type}

instance : Inhabited (Script α ρ) := ⟨.done⟩

/-- Performs actions one after the other until one fails. -/
def ofActions : List α → Script α ρ
  | [] => .done
  | a :: rest => .act a fun
    | .ok _ => ofActions rest
    | .error f => .fail f

end Script

namespace Notice

/-- A notice with one more message. Only updates carry messages. -/
def withMessage (n : Notice) (v : Value) : Except Failure Notice :=
  match n with
  | .update p messages buffer => (appendTo messages v).map fun ms => .update p ms buffer
  | n => .error (.noAttribute n.kind.typeName "messages")

end Notice

section delivery
variable {m : Type → Type} [Monad m] {α ρ : Type}

/-- Runs a script on a notice, given how actions are performed. The notice that comes out holds what
was appended, also if the script fails. -/
def Script.run (perform : α → m (Except Failure ρ)) :
    Script α ρ → Notice → m (Notice × Except Failure Unit)
  | .done, n => pure (n, .ok ())
  | .fail f, n => pure (n, .error f)
  | .act a next, n => do
    let r ← perform a
    (next r).run perform n
  | .append v next, n =>
    match n.withMessage v with
    | .ok n' => (next (.ok ())).run perform n'
    | .error f => (next (.error f)).run perform n

/-- Delivers a notice to listeners in order, given how one is called and how its failure is
reported. Only a failure that may not be contained ends the delivery. -/
def deliverAll (call : ListenerId → Notice → m (Notice × Except Failure Unit))
    (report : ListenerId → Failure → m Unit) :
    List ListenerId → Notice → m (Except Failure Unit)
  | [], _ => pure (.ok ())
  | l :: rest, n => do
    let (n, r) ← call l n
    match r with
    | .ok () => deliverAll call report rest n
    | .error f =>
      if f.isOrdinary then
        report l f
        deliverAll call report rest n
      else pure (.error f)

end delivery

def listenerFault (kind : NoticeKind) (l : ListenerId) : String :=
  "Lint " ++ kind.word ++ " listener <listener " ++ l ++ "> failed"

end LintBroker

import LintBroker.Value.Printed

/-! # Failures

A failure has a kind, arguments, notes and perhaps a failure that led to it. Most kinds are
*ordinary*: they may be contained where they arise. A cancellation and a host's abort are not. -/
namespace LintBroker

/-- Why a value does not fit a declared type, and where in the value. -/
structure Issue where
  code : String
  path : List Value
deriving Inhabited

namespace Failure

inductive Kind
  | exception
  | runtime
  | badValue
  | badType
  | missingKey
  | system
  | fileNotFound
  | permission
  | index
  | missingAttribute
  | zeroDivision
  | overflow
  | exhausted
  | lookup
  | assertion
  | cancelled
  | hostAbort
  | duplicateProvider
  | invalidProvider (problems : List String)
  | registryDisposed
  | rejectedValue (issues : List Issue)
deriving Inhabited

def Kind.label : Kind → String
  | .exception => "Exception"
  | .runtime => "RuntimeError"
  | .badValue => "ValueError"
  | .badType => "TypeError"
  | .missingKey => "KeyError"
  | .system => "OSError"
  | .fileNotFound => "FileNotFoundError"
  | .permission => "PermissionError"
  | .index => "IndexError"
  | .missingAttribute => "AttributeError"
  | .zeroDivision => "ZeroDivisionError"
  | .overflow => "OverflowError"
  | .exhausted => "StopIteration"
  | .lookup => "LookupError"
  | .assertion => "AssertionError"
  | .cancelled => "CancelledError"
  | .hostAbort => "HostAbort"
  | .duplicateProvider => "DuplicateProviderError"
  | .invalidProvider _ => "InvalidProviderError"
  | .registryDisposed => "RegistryDisposedError"
  | .rejectedValue _ => "ValidationError"

/-- The name of a kind as fault reports show it, with its package unless it is a basic one. -/
def Kind.qualifiedLabel (k : Kind) : String :=
  match k with
  | .cancelled => "asyncio.exceptions." ++ k.label
  | .duplicateProvider | .invalidProvider _ | .registryDisposed => "linter_core.errors." ++ k.label
  | .rejectedValue _ => "pydantic_core._pydantic_core." ++ k.label
  | _ => k.label

/-- Whether a failure of the kind may be contained: all but cancellations and a host's abort. -/
def Kind.isOrdinary : Kind → Bool
  | .cancelled | .hostAbort => false
  | _ => true

end Failure

/-- A failure. The `cause` was named by whoever raised it; the `context` is the failure that was
being handled at the time. -/
inductive Failure
  | mk (kind : Failure.Kind) (args : List Value) (notes : List String)
      (cause context : Option Failure)

namespace Failure

instance : Inhabited Failure := ⟨.mk .exception [] [] none none⟩

def kind : Failure → Kind
  | .mk kind .. => kind

def args : Failure → List Value
  | .mk _ args .. => args

def notes : Failure → List String
  | .mk _ _ notes .. => notes

def ofArgs (kind : Kind) (args : List Value) : Failure := .mk kind args [] none none

def ofText (kind : Kind) (text : String) : Failure := ofArgs kind [.str text]

def isOrdinary (f : Failure) : Bool := f.kind.isOrdinary

def isCancellation (f : Failure) : Bool :=
  match f.kind with
  | .cancelled => true
  | _ => false

def isMissingKey (f : Failure) : Bool :=
  match f.kind with
  | .missingKey => true
  | _ => false

def isMissingAttribute (f : Failure) : Bool :=
  match f.kind with
  | .missingAttribute => true
  | _ => false

def isExhaustion (f : Failure) : Bool :=
  match f.kind with
  | .exhausted => true
  | _ => false

/-- The failure raised in place of one that arises while `earlier` is being handled. -/
def during (earlier : Failure) : Failure → Failure
  | .mk kind args notes cause _ => .mk kind args notes cause (some earlier)

/-- The failure with which a computation that can be awaited ends. One that says that there is
nothing left would pass for an orderly end, so another one is raised in its place. -/
def leaving (f : Failure) : Failure :=
  if f.isExhaustion then
    .mk .runtime [.str "coroutine raised StopIteration"] [] (some f) (some f)
  else f

/-- The text of a failure: that of its argument, or of all of them as a tuple. A missing key is
shown as a literal, and a system failure with a number shows the number first. -/
def text : Failure → String
  | .mk kind args _ _ _ =>
    match kind, args with
    | .missingKey, [arg] => arg.literal
    | .system, [number, reason] | .fileNotFound, [number, reason]
    | .permission, [number, reason] => "[Errno " ++ number.plain ++ "] " ++ reason.plain
    | _, [] => ""
    | _, [arg] => arg.plain
    | _, args => (Value.tuple args).literal

/-- The text of a failure as answers show it, where a missing key is shown plainly. -/
def message (f : Failure) : String :=
  match f.kind, f.args with
  | .missingKey, [arg] => arg.plain
  | _, _ => f.text

def literal (f : Failure) : String :=
  f.kind.label ++ "(" ++ Value.commaJoined (Value.literals f.args) ++ ")"

/-- A system failure; a number alone can tell a more special kind. -/
def systemFailure (args : List Value) : Failure :=
  match args with
  | [.int 2, _] => ofArgs .fileNotFound args
  | [.int 13, _] => ofArgs .permission args
  | _ => ofArgs .system args

def cancellation : Failure := ofArgs .cancelled []

def noAttribute (typeName attr : String) : Failure :=
  ofText .missingAttribute ("'" ++ typeName ++ "' object has no attribute '" ++ attr ++ "'")

def notAScope (v : Value) : Failure := ofText .badValue (v.literal ++ " is not a valid Scope")

@[simp] theorem kind_ofArgs (k : Kind) (args : List Value) : (ofArgs k args).kind = k := rfl
@[simp] theorem kind_ofText (k : Kind) (s : String) : (ofText k s).kind = k := rfl
@[simp] theorem kind_during (f g : Failure) : (f.during g).kind = g.kind := by cases g; rfl

/-- Being raised while another failure is handled does not change whether one is ordinary. -/
@[simp] theorem isOrdinary_during (f g : Failure) : (f.during g).isOrdinary = g.isOrdinary := by
  simp [isOrdinary]

/-- No computation ends by saying that there is nothing left. -/
@[simp] theorem isExhaustion_leaving (f : Failure) : f.leaving.isExhaustion = false := by
  unfold leaving
  split
  · rfl
  · simp_all

@[simp] theorem isOrdinary_leaving (f : Failure) : f.leaving.isOrdinary = f.isOrdinary := by
  unfold leaving
  split
  · rename_i h
    cases f with
    | mk kind =>
      cases kind <;> simp_all [isExhaustion, isOrdinary, Kind.isOrdinary, Failure.kind]
  · rfl

end Failure
end LintBroker

import LintBroker.Value.Basic

/-! # Notices

What listeners are told: that a provider began, that it has messages, that it finished. A notice
for a provider of project scope names neither a path nor a buffer. -/
namespace LintBroker

/-- Providers are told apart by identity, which is a name here. -/
abbrev ProviderId := String

inductive NoticeKind
  | begin
  | update
  | finish
deriving DecidableEq, Repr, Inhabited

namespace NoticeKind

def word : NoticeKind → String
  | .begin => "begin"
  | .update => "update"
  | .finish => "finish"

def typeName : NoticeKind → String
  | .begin => "BeginEvent"
  | .update => "UpdateEvent"
  | .finish => "FinishEvent"

end NoticeKind

inductive Notice
  | begin (provider : ProviderId) (filePath : Value)
  | update (provider : ProviderId) (messages buffer : Value)
  | finish (provider : ProviderId) (filePath : Value)
deriving Inhabited

namespace Notice

def kind : Notice → NoticeKind
  | .begin .. => .begin
  | .update .. => .update
  | .finish .. => .finish

def provider : Notice → ProviderId
  | .begin p _ | .update p _ _ | .finish p _ => p

end Notice
end LintBroker

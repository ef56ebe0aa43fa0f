import LintBroker.Table
import LintBroker.Value.Basic

/-! # Declared settings

A schema lists the settings of a host, each with the kind of value it takes and, unless it must be
given, a default: a value common to all who read it, or one made afresh for each reader. -/
namespace LintBroker.Setting

/-- The kinds of value a setting can take. -/
inductive Kind
  | text
  | whole
  | real
  | switch
  | anything
  | list
  | listOf (item : Kind)
  | mapOf (item : Kind)
  | optional (inner : Kind)
deriving DecidableEq, Repr, Inhabited

/-- What a setting is when nothing else sets it: one value for all, or what a factory makes on its
first call, on its second, and so on. -/
inductive Default
  | required
  | shared (v : Value)
  | made (factory : Nat → Value)
deriving Inhabited

/-- A default of which a copy is made on each call. -/
def Default.fresh (v : Value) : Default := .made fun _ => v

structure Declaration where
  kind : Kind
  default : Default
deriving Inhabited

/-- The settings of a host, by name, in order of declaration. -/
abbrev Schema := Table String Declaration

/-- The settings that every host has. -/
def coreSchema : Schema := .ofList [
  ("lint_on_fly", ⟨.switch, .shared (.bool true)⟩),
  ("lint_preview_tabs", ⟨.switch, .shared (.bool true)⟩),
  ("ignore_vcs_ignored_paths", ⟨.switch, .shared (.bool true)⟩),
  ("ignored_glob", ⟨.text, .shared (.str "")⟩),
  ("disabled_providers", ⟨.listOf .text, .fresh (.list [])⟩)]

end LintBroker.Setting

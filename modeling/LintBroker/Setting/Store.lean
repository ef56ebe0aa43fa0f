import LintBroker.Setting.Normal
import LintBroker.Text.Casing

/-! # The layers of a setting

A setting is looked for in the host's own environment variable, then, if every host has it, in the
common variable, then in the sources that the host added, then among the values given at run time,
and last among the defaults. A layer that lacks the setting is passed over; any other failure of a
layer ends the search. -/
namespace LintBroker.Setting
open Text

abbrev Environment := Table String String

/-- A source of settings added by the host: a table, or a source that always fails. -/
inductive ExtraSource
  | values (table : Table String Value)
  | fails (f : Failure)
deriving Inhabited

/-- Where a value read from a store lives. A value that lives nowhere was made for its reader. -/
inductive Place
  | override
  | cache
  | declaration
  | extra (index : Nat)
  | nowhere
deriving DecidableEq, Repr, Inhabited

def missing (key : String) : Failure := .ofText .missingKey key

def unknownSetting (item : String) : Failure := missing ("unknown config item: " ++ quoted item)

def readVariable (env : Environment) (name : String) : Except Failure String :=
  match env.get? name with
  | some s => .ok s
  | none => .error (missing name)

def hostVariable (host item : String) : String := upper host ++ "_" ++ upper item

def commonVariable (item : String) : String := "LINTER_" ++ upper item

def readHostVariable (host : String) (env : Environment) (item : String) : Except Failure String :=
  readVariable env (hostVariable host item)

/-- Reads the common variable of a setting that every host has. -/
def readCommonVariable (env : Environment) (item : String) : Except Failure String :=
  if coreSchema.has item then readVariable env (commonVariable item)
  else .error (missing (quoted item ++ " not a general linter-core config item."))

def readTable (table : Table String Value) (item : String) : Except Failure Value :=
  match table.get? item with
  | some v => .ok v
  | none => .error (missing item)

def ExtraSource.read (e : ExtraSource) (item : String) : Except Failure Value :=
  match e with
  | .values table => readTable table item
  | .fails f => .error f

/-- The defaults that were made for one reader, and how often each of them was. -/
structure MadeDefaults where
  kept : Table String Value := ∅
  calls : Table String Nat := ∅
deriving Inhabited

def MadeDefaults.make (cache : MadeDefaults) (item : String) (factory : Nat → Value) :
    Value × MadeDefaults :=
  let n := (cache.calls.get? item).getD 0
  (factory n, { kept := cache.kept.put item (factory n), calls := cache.calls.put item (n + 1) })

/-- Reads a default. What a factory has made is kept, so that one reader always gets the same. -/
def readDefault (schema : Schema) (cache : MadeDefaults) (item : String) :
    Except Failure (Value × Place) × MadeDefaults :=
  match cache.kept.get? item with
  | some v => (.ok (v, .cache), cache)
  | none =>
    match schema.get? item with
    | none => (.error (missing item), cache)
    | some d =>
      match d.default with
      | .shared v => (.ok (v, .declaration), cache)
      | .made factory =>
        let (v, cache) := cache.make item factory
        (.ok (v, .cache), cache)
      | .required =>
        (.error (missing ("config item " ++ quoted item ++ " has no default value.")), cache)

structure Store where
  className : String := "ConfigService"
  host : String
  schema : Schema := coreSchema
  overrides : Table String Value := ∅
  cache : MadeDefaults := {}
  extras : List ExtraSource := []
  ready : Bool := false
deriving Inhabited

/-- The first layer that has a setting. -/
def firstFound : List (Place × Except Failure Value) → Except Failure (Option (Value × Place))
  | [] => .ok none
  | (place, .ok v) :: _ => .ok (some (v, place))
  | (_, .error f) :: rest => if f.isMissingKey then firstFound rest else .error f

/-- How many of the added sources are asked in a search that starts with them. -/
def extrasAsked : List (Except Failure Value) → Nat
  | [] => 0
  | .ok _ :: _ => 1
  | .error f :: rest => if f.isMissingKey then 1 + extrasAsked rest else 1

namespace Store

def declared (s : Store) (item : String) : Except Failure Declaration :=
  match s.schema.get? item with
  | some d => .ok d
  | none => .error (unknownSetting item)

def variableLayers (s : Store) (env : Environment) (item : String) :
    List (Place × Except Failure Value) :=
  [(.nowhere, (readHostVariable s.host env item).map .str),
    (.nowhere, (readCommonVariable env item).map .str)]

def extraLayers (s : Store) (item : String) : List (Place × Except Failure Value) :=
  s.extras.mapIdx fun n e => (.extra n, e.read item)

/-- Every layer before the defaults. -/
def layers (s : Store) (env : Environment) (item : String) : List (Place × Except Failure Value) :=
  s.variableLayers env item ++ s.extraLayers item ++ [(.override, readTable s.overrides item)]

/-- A value found in a layer, read by the kind of its setting if it is a string. -/
def convert (kind : Kind) (found : Value × Place) : Except Failure (Value × Place) :=
  match found.1.text? with
  | none => .ok found
  | some _ => (ofText kind found.1).map fun v => (v, .nowhere)

/-- Reads a setting, and tells where the value lives. -/
def locate (s : Store) (env : Environment) (item : String) :
    Except Failure (Value × Place) × Store :=
  match s.declared item with
  | .error f => (.error f, s)
  | .ok d =>
    if !s.ready then (.error (.noAttribute s.className "_handlers"), s)
    else
      match firstFound (s.layers env item) with
      | .error f => (.error f, s)
      | .ok (some found) => (convert d.kind found, s)
      | .ok none =>
        let (r, cache) := readDefault s.schema s.cache item
        (r, { s with cache })

def get (s : Store) (env : Environment) (item : String) : Except Failure Value × Store :=
  let (r, s) := s.locate env item
  (r.map Prod.fst, s)

/-- How many of the added sources are asked when a setting is read. -/
def asked (s : Store) (env : Environment) (item : String) : Nat :=
  match s.declared item, s.ready, firstFound (s.variableLayers env item) with
  | .ok _, true, .ok none => extrasAsked (s.extras.map fun e => e.read item)
  | _, _, _ => 0

/-- Gives a setting a value at run time, fitted to its kind. -/
def set (s : Store) (item : String) (v : Value) : Except Failure Store := do
  let d ← s.declared item
  match normalize d.kind v with
  | .ok w => return { s with overrides := s.overrides.put item w }
  | .error issues => throw (rejected issues)

def unset (s : Store) (item : String) : Except Failure Store := do
  let _ ← s.declared item
  return { s with overrides := s.overrides.erase item }

def write (s : Store) (item : String) (v : Value) : Place → Store
  | .override => { s with overrides := s.overrides.put item v }
  | .cache => { s with cache := { s.cache with kept := s.cache.kept.put item v } }
  | .declaration =>
    match s.schema.get? item with
    | some d => { s with schema := s.schema.put item { d with default := .shared v } }
    | none => s
  | .extra n =>
    { s with extras := s.extras.modify n fun e =>
        match e with
        | .values table => .values (table.put item v)
        | .fails f => .fails f }
  | .nowhere => s

end Store

end LintBroker.Setting

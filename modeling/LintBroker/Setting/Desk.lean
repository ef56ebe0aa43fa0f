import LintBroker.Bus.Script
import LintBroker.Setting.Store

/-! # Settings in use

A desk is a store of settings with its environment, and beside it single layers that are read on
their own. Whoever is handed a list that lives in a layer can add to it; who is handed one made for
the occasion cannot. -/
namespace LintBroker.Setting

/-- A store in use, with a layer of run-time values and a cache of defaults that stand alone. -/
structure Desk where
  store : Store
  environment : Environment := ∅
  looseOverrides : Table String Value := ∅
  looseCache : MadeDefaults := {}

inductive DeskAction
  | get (item : String)
  | getAppend (item : String) (v : Value)
  | set (item : String) (v : Value)
  | unset (item : String)
  | setVariable (name : String) (v : Option String)
  | setUp
  | rawHost (item : String)
  | rawCommon (item : String)
  | rawOverride (item : String)
  | rawDefault (item : String)
  | putOverride (item : String) (v : Value)

inductive DeskEntry
  | debug (text : String)
  | extraAsked (item : String)

namespace Desk

def done (r : Except Failure Desk) (lines : List DeskEntry) (d : Desk) :
    Except Failure Value × List DeskEntry × Desk :=
  match r with
  | .ok d => (.ok .none, lines, d)
  | .error f => (.error f, [], d)

/-- Adds to the list that a setting is, where it lives. -/
def append (d : Desk) (item : String) (v : Value) : Except Failure Value × Desk :=
  let (r, store) := d.store.locate d.environment item
  let d := { d with store }
  match r with
  | .error f => (.error f, d)
  | .ok (old, place) =>
    match appendTo old v with
    | .error f => (.error f, d)
    | .ok new => (.ok new, { d with store := d.store.write item new place })

/-- Does something at a desk: the result, what was recorded, and the desk afterwards. -/
def perform (d : Desk) : DeskAction → Except Failure Value × List DeskEntry × Desk
  | .get item =>
    let asked := List.replicate (d.store.asked d.environment item) (.extraAsked item)
    let (r, store) := d.store.get d.environment item
    (r, asked, { d with store })
  | .getAppend item v =>
    let asked := List.replicate (d.store.asked d.environment item) (.extraAsked item)
    let (r, d) := d.append item v
    (r, asked, d)
  | .set item v =>
    done ((d.store.set item v).map fun store => { d with store })
      [.debug ("Config item " ++ Text.quoted item ++ " set to " ++ v.literal)] d
  | .unset item => done ((d.store.unset item).map fun store => { d with store }) [] d
  | .setVariable name v =>
    let environment := match v with
      | some v => d.environment.put name v
      | none => d.environment.erase name
    (.ok .none, [], { d with environment })
  | .setUp =>
    (.ok .none, [.debug ("Setting up " ++ d.store.className)],
      { d with store := { d.store with ready := true } })
  | .rawHost item => ((readHostVariable d.store.host d.environment item).map .str, [], d)
  | .rawCommon item => ((readCommonVariable d.environment item).map .str, [], d)
  | .rawOverride item => (readTable d.looseOverrides item, [], d)
  | .rawDefault item =>
    let (r, looseCache) := readDefault d.store.schema d.looseCache item
    (r.map Prod.fst, [], { d with looseCache })
  | .putOverride item v =>
    (.ok .none, [], { d with looseOverrides := d.looseOverrides.put item v })

end Desk
end LintBroker.Setting

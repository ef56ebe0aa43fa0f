import LintBroker.Proofs.Walk

/-!
# The registered providers

The registry lists the providers in force in the order in which they came in. Whatever else a session
has done before, a call that adds a provider either puts a new record in force or changes nothing at
all, a call that takes one out leaves its record behind, out of force for good, and the questions
about a provider go by the list alone.
-/
namespace LintBroker

theorem Table.get?_of_mem_rows {κ α : Type} [DecidableEq κ] {t : Table κ α} {k : κ} {v : α}
    (distinct : t.keys.Nodup) (h : (k, v) ∈ t.rows) : t.get? k = some v := by
  obtain ⟨rows⟩ := t
  unfold get?
  unfold keys at distinct
  induction rows with
  | nil => cases h
  | cons row rows ih =>
    obtain ⟨hk, distinct⟩ := List.nodup_cons.mp distinct
    rcases List.mem_cons.mp h with rfl | h
    · simp
    · have other : row.1 ≠ k := fun he => hk (he ▸ List.mem_map_of_mem h)
      simpa [other] using ih distinct h

namespace Registry
variable {r : Registry} {p : ProviderId}

theorem mem_providers_iff : p ∈ r.providers ↔ (r.find? p).isSome = true :=
  (r.active.isSome_get?_iff p).symm

theorem find?_eq_none_iff : r.find? p = none ↔ p ∉ r.providers := by
  rw [mem_providers_iff]
  simp

theorem providers_insert (h : p ∉ r.providers) (c : Contract) :
    (r.insert p c).providers = r.providers ++ [p] :=
  (r.active.keys_put p r.records.size).trans (if_neg h)

theorem providers_remove (r : Registry) (p : ProviderId) :
    (r.remove p).providers = r.providers.filter fun q => q ≠ p := by
  unfold remove
  cases h : r.find? p with
  | none =>
    have unlisted := find?_eq_none_iff.mp h
    refine (List.filter_eq_self.mpr fun q hq => ?_).symm
    simp only [ne_eq, decide_not, Bool.not_eq_true', decide_eq_false_iff_not]
    rintro rfl
    exact unlisted hq
  | some id => exact r.active.keys_erase p

/-- The providers are listed once each, and the registration of a listed provider is its own and says
that it is in force. -/
structure Orderly (r : Registry) : Prop where
  distinct : r.providers.Nodup
  own : ∀ {p : ProviderId} {id : RecordId}, r.find? p = some id →
    ∃ x, r.records[id]? = some x ∧ x.provider = p ∧ x.activated = true

theorem orderly_empty (b : Bus) : Orderly { bus := b } where
  distinct := List.nodup_nil
  own h := by cases h

namespace Orderly

/-- Every registration in force was made. -/
theorem made (h : r.Orderly) {id : RecordId} (hi : id ∈ r.active.values) :
    ∃ x, r.records[id]? = some x := by
  obtain ⟨row, hrow, rfl⟩ := List.mem_map.mp hi
  obtain ⟨x, hx, _⟩ := h.own (Table.get?_of_mem_rows h.distinct hrow)
  exact ⟨x, hx⟩

/-- The registrations in force are those of the listed providers, in order. -/
theorem map_provider_values (h : r.Orderly) :
    r.active.values.map (fun id => r.records[id]?.map Record.provider) = r.providers.map some := by
  rw [providers, Table.values, Table.keys, List.map_map, List.map_map]
  refine List.map_congr_left fun row hrow => ?_
  obtain ⟨x, hx, hp, _⟩ := h.own (Table.get?_of_mem_rows h.distinct hrow)
  show r.records[row.2]?.map Record.provider = some row.1
  rw [hx, Option.map_some, hp]

theorem insert (h : r.Orderly) (new : r.find? p = none) (c : Contract) :
    (r.insert p c).Orderly := by
  constructor
  · have unlisted := find?_eq_none_iff.mp new
    rw [providers_insert unlisted, List.nodup_append]
    refine ⟨h.distinct, List.nodup_singleton p, ?_⟩
    intro q hq q' hq' hqq
    rw [List.mem_singleton.mp hq'] at hqq
    exact unlisted (hqq ▸ hq)
  · intro q id hq
    rw [find?_insert] at hq
    rw [getElem?_insert]
    split at hq
    · cases hq
      exact ⟨_, if_pos rfl, ‹p = q›, rfl⟩
    · obtain ⟨x, hx, hp, ha⟩ := h.own hq
      have size_lt : id < r.records.size := (Array.getElem?_eq_some_iff.mp hx).1
      exact ⟨x, by rw [if_neg (Nat.ne_of_lt size_lt), hx], hp, ha⟩

theorem remove (h : r.Orderly) {id : RecordId} (hp : r.find? p = some id) :
    (r.remove p).Orderly := by
  constructor
  · rw [providers_remove]
    exact h.distinct.filter _
  · intro q i hq
    rw [find?_remove] at hq
    split at hq
    · cases hq
    · obtain ⟨x, hx, hxq, ha⟩ := h.own hq
      obtain ⟨y, hy, hyp, _⟩ := h.own hp
      have other : id ≠ i := by
        rintro rfl
        rw [hx, Option.some.injEq] at hy
        exact ‹¬ p = q› (by rw [← hyp, ← hy, hxq])
      exact ⟨x, by rw [r.getElem?_remove hp, if_neg other, hx], hxq, ha⟩

theorem dispose : r.dispose.Orderly where
  distinct := List.nodup_nil
  own h := by cases h

theorem changeRecord (h : r.Orderly) {id : RecordId} {f : Record Nat → Record Nat}
    (hp : ∀ x, (f x).provider = x.provider) (ha : ∀ x, (f x).activated = x.activated) :
    (r.changeRecord id f).Orderly := by
  refine ⟨h.distinct, fun {q i} hq => ?_⟩
  obtain ⟨x, hx, hxq, hxa⟩ := h.own hq
  rw [getElem?_changeRecord, hx]
  by_cases hi : id = i
  · exact ⟨f x, by simp [hi], (hp x).trans hxq, (ha x).trans hxa⟩
  · exact ⟨x, by simp [hi], hxq, hxa⟩

end Orderly

/-- Every record is still there as it was, but for this: it is out of force unless its provider is
still listed under it. -/
def Retires (r r' : Registry) : Prop :=
  ∀ (id : RecordId) (x : Record Nat), r.records[id]? = some x →
    r'.records[id]? =
      some (if r'.find? x.provider = some id then x else { x with activated := false })

end Registry

namespace Session
variable {s s' : Session}

theorem Step.orderly (h : s.Step s') (hs : s.registry.Orderly) : s'.registry.Orderly := by
  cases h with
  | change h =>
    cases h with
    | register c _ new => exact hs.insert new c
    | remove hp => exact hs.remove hp
    | dispose => exact .dispose
    | bus => exact ⟨hs.distinct, hs.own⟩
    | _ => exact hs
  | opens => exact hs.changeRecord (fun _ => rfl) fun _ => rfl
  | accepts => exact hs.changeRecord (fun _ => rfl) fun _ => rfl
  | _ => exact hs

theorem Path.orderly (h : s.Path s') (hs : s.registry.Orderly) : s'.registry.Orderly := by
  induction h with
  | refl => exact hs
  | tail _ step ih => exact step.orderly ih

theorem orderly_run (s : Session) (moves : List Move) : (s.opening.run moves).registry.Orderly :=
  (s.comes_opening moves).path.orderly (Registry.orderly_empty _)

/-- Changes remove no record, and keep all of it but whether it is in force. -/
theorem Changes.record_forth (h : Changes s s') {id : RecordId} {x : Record Nat}
    (hx : s.registry.records[id]? = some x) :
    ∃ y, s'.registry.records[id]? = some y ∧ x.Becomes y ∧ y.counters = x.counters := by
  induction h with
  | refl => exact ⟨x, hx, .refl x, rfl⟩
  | tail _ change ih =>
    obtain ⟨y, hy, hxy, hc⟩ := ih
    obtain ⟨z, hz, hyz, hc'⟩ := change.record_forth hy
    exact ⟨z, hz, hxy.trans hyz, hc'.trans hc⟩

theorem Changes.retires (h : Changes s s') (sound : s'.registry.Sound)
    (orderly : s'.registry.Orderly) : s.registry.Retires s'.registry := by
  intro id x hx
  obtain ⟨y, hy, hxy, hc⟩ := h.record_forth hx
  have form : y = { x with activated := y.activated } := by
    obtain ⟨py, cy, ay, ny⟩ := y
    obtain ⟨px, cx, ax, nx⟩ := x
    obtain rfl : py = px := hxy.provider
    obtain rfl : cy = cx := hxy.contract
    obtain rfl : ny = nx := hc
    rfl
  rw [hy, form]
  split
  · next hf =>
    obtain ⟨z, hz, _, ha⟩ := orderly.own hf
    obtain rfl := Option.some.inj (hz.symm.trans hy)
    rw [ha, ← hxy.activated ha]
  · next hf =>
    have out : y.activated = false := by
      rw [Bool.eq_false_iff]
      intro ha
      exact hf (hxy.provider ▸ sound.inForce hy ha)
    rw [out]

/-! ### Single calls -/

/-- The provider may be added: the registry is in use, the provider is not listed, and it keeps a
contract. -/
def Admits (s : Session) (p : ProviderId) (legacy : Bool) : Prop :=
  s.registry.disposed = false ∧ p ∉ s.registry.providers ∧
    ∃ a c, s.attributesOf p = .ok a ∧ Contract.of a legacy = .ok c ∧ a.validate c = .ok ()

end Session

theorem bind_eq_ok {α β : Type} {x : Except Failure α} {f : α → Except Failure β} {b : β}
    (h : x >>= f = .ok b) : ∃ a, x = .ok a ∧ f a = .ok b := by
  cases x with
  | ok a => exact ⟨a, rfl, h⟩
  | error e => cases h

namespace Attributes
variable {a : Attributes} {c : Contract}

theorem breaches_of_validate (h : a.validate c = .ok ()) : a.breaches c = .ok [] := by
  obtain ⟨found, hb, h⟩ := bind_eq_ok h
  cases found with
  | nil => exact hb
  | cons b found =>
    obtain ⟨_, _, h⟩ := bind_eq_ok h
    cases h

theorem read_name_of_validate (h : a.validate c = .ok ()) : ∃ v, a.read "name" = .ok v := by
  obtain ⟨name, hn, h⟩ := bind_eq_ok (breaches_of_validate h)
  obtain ⟨_, _, h⟩ := bind_eq_ok h
  obtain ⟨_, _, h⟩ := bind_eq_ok h
  obtain ⟨_, _, h⟩ := bind_eq_ok h
  obtain ⟨_, _, h⟩ := bind_eq_ok h
  obtain ⟨_, _, h⟩ := bind_eq_ok h
  have kept := (List.filterMap_eq_nil_iff.mp (Except.ok.inj h)) (nameBreach (valueOrNone name))
    List.mem_cons_self
  cases name with
  | none => cases kept
  | some x =>
    unfold read? at hn
    split at hn
    · next hl => exact ⟨_, by rw [read, hl]; rfl⟩
    · split at hn <;> cases hn

end Attributes

open Session

namespace Broker
variable {s : Session} {p : ProviderId} {legacy : Bool}

theorem exec_hasProvider (p : ProviderId) (s : Session) :
    (hasProvider p).exec s = (.ok (decide (p ∈ s.registry.providers)), s) := by
  simp only [hasProvider, Act.exec_bind, Act.exec_get, Act.exec_pure]
  congr 2
  rw [Bool.eq_iff_iff]
  simp [Registry.mem_providers_iff]

theorem exec_readAttribute (p : ProviderId) (name : String) (s : Session) :
    (Act.readAttribute p name).exec s = (s.attributesOf p >>= fun a => a.read name, s) := by
  simp only [Act.readAttribute, Act.exec_bind, Act.exec_attributes, Act.exec_take]
  cases s.attributesOf p <;> rfl

/-- What adding a provider comes to while the registry is in use and the provider is not listed. -/
theorem exec_addProvider_new (usable : s.registry.disposed = false)
    (new : p ∉ s.registry.providers) :
    (addProvider p legacy).exec s = (do
      let contract ← Act.take (Contract.of (← Act.attributes p) legacy)
      Act.take ((← Act.attributes p).validate contract)
      let id := (← get).registry.records.size
      Act.modifyRegistry fun r => r.insert p contract
      Act.note (.registered id p)
      let name ← Act.readAttribute p "name"
      Act.debug ("Registered provider " ++ name.literal ++ " (version " ++
        toString contract.number ++ ")") : Act Unit).exec s := by
  have unlisted : (hasProvider p).exec s = (.ok false, s) := by simp [exec_hasProvider, new]
  unfold addProvider
  rw [Act.exec_bind_ok Act.exec_get]
  simp only [usable, Bool.false_eq_true, if_false]
  rw [Act.exec_bind_ok unlisted]
  rfl

def registrationLine (name : Value) (c : Contract) : String :=
  "Registered provider " ++ name.literal ++ " (version " ++ toString c.number ++ ")"

/-- A provider that may be added gets a new record. -/
theorem exec_addProvider {a : Attributes} {c : Contract} (usable : s.registry.disposed = false)
    (new : p ∉ s.registry.providers) (ha : s.attributesOf p = .ok a)
    (hc : Contract.of a legacy = .ok c) (hv : a.validate c = .ok ()) :
    ∃ name, a.read "name" = .ok name ∧ (addProvider p legacy).exec s =
      (.ok (), ((s.onRegistry fun r => r.insert p c).noted
        (.registered s.registry.records.size p)).noted (.debug (registrationLine name c))) := by
  obtain ⟨name, hn⟩ := Attributes.read_name_of_validate hv
  have attributes : (Act.attributes p).exec s = (.ok a, s) := by rw [Act.exec_attributes, ha]
  have checked : (Act.take (Contract.of a legacy)).exec s = (.ok c, s) := by
    rw [Act.exec_take, hc]
  have valid : (Act.take (a.validate c)).exec s = (.ok (), s) := by rw [Act.exec_take, hv]
  have named (s' : Session) (h : s'.host = s.host) :
      (Act.readAttribute p "name").exec s' = (.ok name, s') := by
    have ha' : s'.attributesOf p = .ok a := by rw [← ha, attributesOf, attributesOf, h]
    rw [exec_readAttribute, ha']
    exact congrArg (·, s') hn
  refine ⟨name, hn, ?_⟩
  rw [exec_addProvider_new usable new, Act.exec_bind_ok attributes, Act.exec_bind_ok checked,
    Act.exec_bind_ok attributes, Act.exec_bind_ok valid, Act.exec_bind_ok Act.exec_get,
    Act.exec_bind_ok (Act.exec_modifyRegistry _), Act.exec_bind_ok (Act.exec_note _),
    Act.exec_bind_ok (named ((s.onRegistry _).noted _) rfl)]
  rfl

/-- Nothing is added to a registry that is disposed. -/
theorem exec_addProvider_disposed (disposed : s.registry.disposed = true) (p : ProviderId)
    (legacy : Bool) : (addProvider p legacy).exec s = (.error .registryDisposed, s) := by
  unfold addProvider
  rw [Act.exec_bind_ok Act.exec_get, disposed]
  rfl

def duplicateOf (s : Session) (p : ProviderId) : Failure :=
  match s.attributesOf p >>= fun a => a.read "name" with
  | .ok name => .duplicateProvider name.plain
  | .error f => f

/-- No provider is added twice. -/
theorem exec_addProvider_listed (usable : s.registry.disposed = false)
    (listed : p ∈ s.registry.providers) (legacy : Bool) :
    (addProvider p legacy).exec s = (.error (duplicateOf s p), s) := by
  have found : (hasProvider p).exec s = (.ok true, s) := by simp [exec_hasProvider, listed]
  unfold addProvider duplicateOf
  rw [Act.exec_bind_ok Act.exec_get]
  simp only [usable, Bool.false_eq_true, if_false]
  rw [Act.exec_bind_ok found]
  simp only [if_true]
  cases hn : s.attributesOf p >>= fun a => a.read "name" with
  | error f => exact Act.exec_bind_error (by rw [exec_readAttribute, hn])
  | ok name =>
    rw [Act.exec_bind_ok (by rw [exec_readAttribute, hn])]
    rfl

/-- A provider is not added if it is not there. -/
theorem exec_addProvider_missing (usable : s.registry.disposed = false)
    (new : p ∉ s.registry.providers) {f : Failure} (missing : s.attributesOf p = .error f)
    (legacy : Bool) : (addProvider p legacy).exec s = (.error f, s) := by
  rw [exec_addProvider_new usable new]
  exact Act.exec_bind_error (by rw [Act.exec_attributes, missing])

/-- A provider is not added if it breaks its contract. -/
theorem exec_addProvider_invalid {a : Attributes} {c : Contract} {f : Failure}
    (usable : s.registry.disposed = false) (new : p ∉ s.registry.providers)
    (ha : s.attributesOf p = .ok a) (hc : Contract.of a legacy = .ok c)
    (hv : a.validate c = .error f) : (addProvider p legacy).exec s = (.error f, s) := by
  have attributes : (Act.attributes p).exec s = (.ok a, s) := by rw [Act.exec_attributes, ha]
  have checked : (Act.take (Contract.of a legacy)).exec s = (.ok c, s) := by
    rw [Act.exec_take, hc]
  rw [exec_addProvider_new usable new, Act.exec_bind_ok attributes, Act.exec_bind_ok checked,
    Act.exec_bind_ok attributes]
  exact Act.exec_bind_error (by rw [Act.exec_take, hv])

/-- Adding any other provider fails and changes nothing. -/
theorem exec_addProvider_refused (h : ¬ s.Admits p legacy) :
    ∃ f, (addProvider p legacy).exec s = (.error f, s) := by
  cases usable : s.registry.disposed with
  | true => exact ⟨_, exec_addProvider_disposed usable p legacy⟩
  | false =>
    by_cases new : p ∈ s.registry.providers
    · exact ⟨_, exec_addProvider_listed usable new legacy⟩
    · cases ha : s.attributesOf p with
      | error f => exact ⟨f, exec_addProvider_missing usable new ha legacy⟩
      | ok a =>
        cases hc : Contract.of a legacy with
        | error f =>
          have attributes : (Act.attributes p).exec s = (.ok a, s) := by rw [Act.exec_attributes, ha]
          rw [exec_addProvider_new usable new, Act.exec_bind_ok attributes]
          exact ⟨f, Act.exec_bind_error (by rw [Act.exec_take, hc])⟩
        | ok c =>
          cases hv : a.validate c with
          | error f => exact ⟨f, exec_addProvider_invalid usable new ha hc hv⟩
          | ok _ => exact absurd ⟨usable, new, a, c, ha, hc, hv⟩ h

/-- Taking a provider out takes its registration out of force, whatever comes of the line about it. -/
theorem registry_removeProvider (p : ProviderId) (s : Session) :
    ((removeProvider p).exec s).2.registry = s.registry.remove p := by
  unfold removeProvider
  rw [Act.exec_bind_ok Act.exec_get]
  cases hp : s.registry.find? p with
  | none => simp [Registry.remove, hp]
  | some id =>
    simp only
    rw [Act.exec_bind_ok (Act.exec_modifyRegistry _), Act.exec_bind_ok (Act.exec_note _)]
    cases hn : s.nameOf p with
    | error f =>
      have unnamed : (nameOf p).exec ((s.onRegistry fun r => r.remove p).noted (.removed id p)) =
          (.error f, (s.onRegistry fun r => r.remove p).noted (.removed id p)) := by
        rw [exec_nameOf]
        exact congrArg (·, _) hn
      rw [Act.exec_bind_error unnamed]
      rfl
    | ok name =>
      have named : (nameOf p).exec ((s.onRegistry fun r => r.remove p).noted (.removed id p)) =
          (.ok name, (s.onRegistry fun r => r.remove p).noted (.removed id p)) := by
        rw [exec_nameOf]
        exact congrArg (·, _) hn
      rw [Act.exec_bind_ok named]
      rfl

end Broker

/-! ### Calls one after the other -/

/-- A call on the set of registered providers. -/
inductive RosterCall
  | add (p : ProviderId) (legacy : Bool)
  | remove (p : ProviderId)
  | has (p : ProviderId)
  | recordOf (p : ProviderId)
  | dispose
deriving DecidableEq, Repr, Inhabited

namespace RosterCall

/-- The call as an action of the host. -/
def action : RosterCall → Action
  | .add p legacy => .add p legacy
  | .remove p => .remove p
  | .has p => .has p
  | .recordOf p => .recordOf p
  | .dispose => .dispose

/-- What a call makes of a list of providers. Adding counts only if it succeeded. -/
def applied (c : RosterCall) (succeeded : Bool) (ps : List ProviderId) : List ProviderId :=
  match c with
  | .add p _ => if succeeded then ps ++ [p] else ps
  | .remove p => ps.filter fun q => q ≠ p
  | .dispose => []
  | .has _ | .recordOf _ => ps

end RosterCall

namespace Session
variable {s s' : Session}

def called (s : Session) (calls : List RosterCall) : Session :=
  s.run (calls.map fun c => .act c.action)

/-- What calls make of a list of providers, one after the other. -/
def roster (s : Session) : List RosterCall → List ProviderId → List ProviderId
  | [], ps => ps
  | c :: rest, ps =>
    (s.perform c.action).2.roster rest (c.applied (s.perform c.action).1.isOk ps)

/-- The questions about a provider go by the list and change nothing; the record of a listed provider
is its own and in force. -/
structure AnswersFor (s : Session) (p : ProviderId) : Prop where
  has : s.perform (.has p) = (.ok (.value (.bool (decide (p ∈ s.registry.providers)))), s)
  listed : p ∈ s.registry.providers → ∃ (id : RecordId) (x : Record Nat),
    s.perform (.recordOf p) = (.ok (.value (.int id)), s) ∧ s.registry.records[id]? = some x ∧
      x.provider = p ∧ x.activated = true
  unlisted : p ∉ s.registry.providers →
    s.perform (.recordOf p) = (.error (Broker.notRegistered p), s)

/-- Adding the provider gives it a new record, at the end of the list, in force and with both
counters at zero, if it may be added; otherwise it fails and changes nothing. -/
structure AddsOrFails (s : Session) (p : ProviderId) (legacy : Bool) : Prop where
  added : s.Admits p legacy → ∃ (s' : Session) (c : Contract),
    s.perform (.add p legacy) = (.ok (.value .none), s') ∧
      s'.registry.providers = s.registry.providers ++ [p] ∧
      s'.registry.find? p = some s.registry.records.size ∧
      s'.registry.records = s.registry.records.push
        { provider := p, contract := c, activated := true,
          counters := { latest := 0, lastReceived := 0 } }
  refused : ¬ s.Admits p legacy → ∃ f, s.perform (.add p legacy) = (.error f, s)

theorem answersFor (orderly : s.registry.Orderly) (p : ProviderId) : s.AnswersFor p := by
  constructor
  · show (Act.perform (.has p)).exec s = _
    unfold Act.perform
    rw [Act.exec_bind_ok (Broker.exec_hasProvider p s)]
    rfl
  · intro hp
    obtain ⟨id, hid⟩ := Option.isSome_iff_exists.mp (Registry.mem_providers_iff.mp hp)
    obtain ⟨x, hx, hxp, ha⟩ := orderly.own hid
    refine ⟨id, x, ?_, hx, hxp, ha⟩
    show (Act.perform (.recordOf p)).exec s = _
    have found : (Broker.recordOf p).exec s = (.ok id, s) := by
      simp [Broker.recordOf, Act.exec_bind, hid]
    unfold Act.perform
    rw [Act.exec_bind_ok found]
    rfl
  · intro hp
    show (Act.perform (.recordOf p)).exec s = _
    have missing : (Broker.recordOf p).exec s = (.error (Broker.notRegistered p), s) := by
      simp [Broker.recordOf, Act.exec_bind, Registry.find?_eq_none_iff.mpr hp]
    unfold Act.perform
    rw [Act.exec_bind_error missing]

theorem addsOrFails (s : Session) (p : ProviderId) (legacy : Bool) : s.AddsOrFails p legacy := by
  constructor
  · rintro ⟨usable, new, a, c, ha, hc, hv⟩
    obtain ⟨name, -, he⟩ := Broker.exec_addProvider usable new ha hc hv
    refine ⟨((s.onRegistry fun r => r.insert p c).noted (.registered s.registry.records.size p)).noted
      (.debug (Broker.registrationLine name c)), c, ?_,
      Registry.providers_insert new c, ?_, rfl⟩
    · show (Act.perform (.add p legacy)).exec s = _
      unfold Act.perform Act.nothing
      rw [Act.exec_bind_ok he]
      rfl
    · show (s.registry.insert p c).find? p = _
      simp
  · intro h
    obtain ⟨f, he⟩ := Broker.exec_addProvider_refused h
    refine ⟨f, ?_⟩
    show (Act.perform (.add p legacy)).exec s = _
    unfold Act.perform Act.nothing
    rw [Act.exec_bind_error he]

theorem providers_perform (s : Session) (orderly : s.registry.Orderly) (c : RosterCall) :
    (s.perform c.action).2.registry.providers =
      c.applied (s.perform c.action).1.isOk s.registry.providers := by
  cases c with
  | add p legacy =>
    by_cases h : s.Admits p legacy
    · obtain ⟨s', _, he, hp, _⟩ := (s.addsOrFails p legacy).added h
      simp [RosterCall.action, RosterCall.applied, he, hp, Except.isOk, Except.toBool]
    · obtain ⟨f, he⟩ := (s.addsOrFails p legacy).refused h
      simp [RosterCall.action, RosterCall.applied, he, Except.isOk, Except.toBool]
  | remove p =>
    have removed : (s.perform (.remove p)).2.registry = s.registry.remove p := by
      rw [← Broker.registry_removeProvider p s]
      show ((Act.perform (.remove p)).exec s).2.registry = _
      unfold Act.perform Act.nothing
      rcases Act.exec_cases (Broker.removeProvider p) s with ⟨_, s', h⟩ | ⟨f, s', h⟩
      · rw [Act.exec_bind_ok h, h]
        rfl
      · rw [Act.exec_bind_error h, h]
    exact (congrArg Registry.providers removed).trans (Registry.providers_remove _ p)
  | has p =>
    have same := (answersFor orderly p).has
    simp [RosterCall.action, RosterCall.applied, same]
  | recordOf p =>
    by_cases hp : p ∈ s.registry.providers
    · obtain ⟨_, _, same, _⟩ := (answersFor orderly p).listed hp
      simp [RosterCall.action, RosterCall.applied, same]
    · have same := (answersFor orderly p).unlisted hp
      simp [RosterCall.action, RosterCall.applied, same]
  | dispose => rfl

/-- Calls are changes. -/
theorem changes_called (s : Session) (calls : List RosterCall) : Changes s (s.called calls) := by
  induction calls generalizing s with
  | nil => exact .refl
  | cons c rest ih =>
    have first : Changes s (s.perform c.action).2 := Act.changes_perform c.action s
    exact first.trans (ih _)

theorem providers_called (orderly : s.registry.Orderly) (calls : List RosterCall) :
    (s.called calls).registry.providers = s.roster calls s.registry.providers := by
  induction calls generalizing s with
  | nil => rfl
  | cons c rest ih =>
    have first : Changes s (s.perform c.action).2 := Act.changes_perform c.action s
    show ((s.perform c.action).2.called rest).registry.providers = _
    rw [ih (first.path.orderly orderly), providers_perform s orderly c]
    rfl

/-- Whatever a session has done, calls keep the providers as an ordered set: the list holds those
that were added with success and not taken out since, once each, in the order of their last
addition; the questions about a provider go by that list; records stay as they are, in force while
their provider is listed under them and out of force from then on; and adding a provider puts a new
record in force or changes nothing. -/
theorem calls_keep_roster (s : Session) (moves : List Move) (calls : List RosterCall) :
    let start := s.opening.run moves
    let last := start.called calls
    (last.registry.providers = start.roster calls start.registry.providers ∧
      last.registry.providers.Nodup) ∧
    (∀ p, last.AnswersFor p) ∧
    (∀ before after, calls = before ++ after →
      (start.called before).registry.Retires last.registry) ∧
    ∀ p legacy, last.AddsOrFails p legacy := by
  intro start last
  have path := (s.comes_opening moves).path
  have orderly : last.registry.Orderly :=
    (start.changes_called calls).path.orderly (s.orderly_run moves)
  have sound : last.registry.Sound :=
    ((s.coherent_run moves).path (start.changes_called calls).path).sound
  refine ⟨⟨providers_called (s.orderly_run moves) calls, orderly.distinct⟩, answersFor orderly, ?_,
    last.addsOrFails⟩
  rintro before after rfl
  have split : last = (start.called before).called after := by
    simp [last, called, run]
  have changes := (start.called before).changes_called after
  rw [← split] at changes
  exact changes.retires sound orderly

end Session
end LintBroker

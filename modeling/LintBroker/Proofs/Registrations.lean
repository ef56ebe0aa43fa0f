import LintBroker.Proofs.Transition

/-!
# Registrations

Records are never removed. A record keeps its provider and its contract, its counters only grow, and
once it is out of force it stays so; a provider that is registered again gets a new record. So of all
the records of a provider at most the newest is in force.
-/
namespace LintBroker

theorem Table.mem_values_of_get? {κ α : Type} [DecidableEq κ] {t : Table κ α} {k : κ} {v : α}
    (h : t.get? k = some v) : v ∈ t.values := by
  obtain ⟨r, hr, rfl⟩ := Option.map_eq_some_iff.mp h
  exact List.mem_map_of_mem (List.mem_of_find?_eq_some hr)

/-- One record may become the other. -/
structure Record.Becomes (x y : Record Nat) : Prop where
  provider : y.provider = x.provider
  contract : y.contract = x.contract
  activated : y.activated = true → x.activated = true
  latest : x.counters.latest ≤ y.counters.latest
  lastReceived : x.counters.lastReceived ≤ y.counters.lastReceived

namespace Record.Becomes
variable {x y z : Record Nat}

theorem refl (x : Record Nat) : x.Becomes x := ⟨rfl, rfl, id, Nat.le_refl _, Nat.le_refl _⟩

theorem trans (h : x.Becomes y) (h' : y.Becomes z) : x.Becomes z where
  provider := h'.provider.trans h.provider
  contract := h'.contract.trans h.contract
  activated hz := h.activated (h'.activated hz)
  latest := Nat.le_trans h.latest h'.latest
  lastReceived := Nat.le_trans h.lastReceived h'.lastReceived

theorem deactivate (x : Record Nat) : x.Becomes x.deactivate :=
  ⟨rfl, rfl, nofun, Nat.le_refl _, Nat.le_refl _⟩

end Record.Becomes

namespace Registry
variable (r : Registry)

theorem getElem?_changeRecord (id i : RecordId) (f : Record Nat → Record Nat) :
    (r.changeRecord id f).records[i]? =
      if id = i then r.records[i]?.map f else r.records[i]? := by
  simp [changeRecord, Array.getElem?_modify]

theorem getElem?_insert (p : ProviderId) (c : Contract) (i : RecordId) :
    (r.insert p c).records[i]? =
      if i = r.records.size then
        some { provider := p, contract := c, counters := { lastReceived := 0 } }
      else r.records[i]? := by
  simp only [insert, Array.getElem?_push]

theorem getElem?_remove {p : ProviderId} {id : RecordId} (h : r.find? p = some id)
    (i : RecordId) :
    (r.remove p).records[i]? =
      if id = i then r.records[i]?.map Record.deactivate else r.records[i]? := by
  simp only [remove, h, changeRecord, Array.getElem?_modify]

theorem getElem?_dispose (i : RecordId) :
    r.dispose.records[i]? =
      if i ∈ r.active.values then r.records[i]?.map Record.deactivate else r.records[i]? := by
  simp only [dispose]
  induction r.active.values generalizing r with
  | nil => simp
  | cons id ids ih =>
    have rest := ih { r with records := r.records.modify id Record.deactivate }
    rw [List.foldl_cons, rest, Array.getElem?_modify]
    by_cases hi : id = i
    · subst hi
      cases r.records[id]? <;> simp [Record.deactivate]
    · simp [hi, Ne.symm hi]

theorem size_dispose : r.dispose.records.size = r.records.size := by
  simp only [dispose]
  induction r.active.values generalizing r with
  | nil => rfl
  | cons id ids ih =>
    have rest := ih { r with records := r.records.modify id Record.deactivate }
    rwa [Array.size_modify] at rest

/-- The registration of a provider that is in force is its newest, and the only one whose record
says that it is in force. -/
structure Sound (r : Registry) : Prop where
  known : ∀ {p : ProviderId} {id : RecordId}, r.find? p = some id →
    ∃ x, r.records[id]? = some x ∧ x.provider = p
  inForce : ∀ {id : RecordId} {x : Record Nat}, r.records[id]? = some x → x.activated = true →
    r.find? x.provider = some id
  newest : ∀ {p : ProviderId} {id : RecordId}, r.find? p = some id →
    ∀ {i : RecordId} {y : Record Nat}, r.records[i]? = some y → y.provider = p → i ≤ id

theorem sound_empty (b : Bus) : Sound { bus := b } where
  known h := by cases h
  inForce h := by simp at h
  newest h := by cases h

namespace Sound
variable {r}

theorem insert (h : r.Sound) {p : ProviderId} (new : r.find? p = none) (c : Contract) :
    (r.insert p c).Sound := by
  have size_lt {id : RecordId} {x : Record Nat} (hx : r.records[id]? = some x) :
      id < r.records.size := (Array.getElem?_eq_some_iff.mp hx).1
  constructor
  · intro q id hq
    rw [find?_insert] at hq
    rw [getElem?_insert]
    split at hq
    · cases hq
      subst q
      exact ⟨_, if_pos rfl, rfl⟩
    · obtain ⟨x, hx, hp⟩ := h.known hq
      exact ⟨x, by rw [if_neg (Nat.ne_of_lt (size_lt hx)), hx], hp⟩
  · intro id x hx ha
    rw [getElem?_insert] at hx
    rw [find?_insert]
    split at hx
    · cases hx
      subst id
      exact if_pos rfl
    · have hf := h.inForce hx ha
      rw [if_neg, hf]
      intro hp
      rw [← hp, new] at hf
      cases hf
  · intro q id hq i y hy hp
    rw [find?_insert] at hq
    rw [getElem?_insert] at hy
    split at hq
    · cases hq
      split at hy
      · exact Nat.le_of_eq ‹_›
      · exact Nat.le_of_lt (size_lt hy)
    · split at hy
      · cases hy
        exact absurd hp ‹_›
      · exact h.newest hq hy hp

theorem remove (h : r.Sound) {p : ProviderId} {id : RecordId} (hp : r.find? p = some id) :
    (r.remove p).Sound := by
  obtain ⟨z, hz, hzp⟩ := h.known hp
  have back {i : RecordId} {y : Record Nat} (hy : (r.remove p).records[i]? = some y) :
      ∃ x, r.records[i]? = some x ∧ y.provider = x.provider ∧
        (y.activated = true → i ≠ id ∧ x.activated = true) := by
    rw [r.getElem?_remove hp] at hy
    split at hy
    · obtain ⟨x, hx, rfl⟩ := Option.map_eq_some_iff.mp hy
      exact ⟨x, hx, rfl, nofun⟩
    · exact ⟨y, hy, rfl, fun ha => ⟨Ne.symm ‹_›, ha⟩⟩
  constructor
  · intro q i hq
    rw [find?_remove] at hq
    split at hq
    · cases hq
    · obtain ⟨x, hx, hxp⟩ := h.known hq
      refine ⟨x, ?_, hxp⟩
      rw [r.getElem?_remove hp, if_neg, hx]
      rintro rfl
      rw [hz, Option.some.injEq] at hx
      exact ‹¬ p = q› (by rw [← hzp, ← hxp, hx])
  · intro i y hy ha
    obtain ⟨x, hx, hyx, hact⟩ := back hy
    obtain ⟨hne, hxa⟩ := hact ha
    have hf := h.inForce hx hxa
    rw [hyx, find?_remove, if_neg, hf]
    intro he
    rw [← he, hp, Option.some.injEq] at hf
    exact hne hf.symm
  · intro q i hq j y hy hyq
    rw [find?_remove] at hq
    split at hq
    · cases hq
    · obtain ⟨x, hx, hyx, _⟩ := back hy
      exact h.newest hq hx (hyx.symm.trans hyq)

theorem dispose (h : r.Sound) : r.dispose.Sound := by
  constructor
  · intro p id hp
    cases hp
  · intro id y hy ha
    rw [getElem?_dispose] at hy
    split at hy
    · obtain ⟨x, _, rfl⟩ := Option.map_eq_some_iff.mp hy
      cases ha
    · exact absurd (Table.mem_values_of_get? (h.inForce hy ha)) ‹_›
  · intro p id hp
    cases hp

theorem changeRecord (h : r.Sound) {id : RecordId} {f : Record Nat → Record Nat}
    (hp : ∀ x, (f x).provider = x.provider) (ha : ∀ x, (f x).activated = x.activated) :
    (r.changeRecord id f).Sound := by
  have back {i : RecordId} {y : Record Nat} (hy : (r.changeRecord id f).records[i]? = some y) :
      ∃ x, r.records[i]? = some x ∧ y.provider = x.provider ∧ y.activated = x.activated := by
    rw [getElem?_changeRecord] at hy
    split at hy
    · obtain ⟨x, hx, rfl⟩ := Option.map_eq_some_iff.mp hy
      exact ⟨x, hx, hp x, ha x⟩
    · exact ⟨y, hy, rfl, rfl⟩
  constructor
  · intro p i hi
    obtain ⟨x, hx, hxp⟩ := h.known hi
    rw [getElem?_changeRecord, hx]
    by_cases he : id = i
    · exact ⟨f x, by simp [he], (hp x).trans hxp⟩
    · exact ⟨x, by simp [he], hxp⟩
  · intro i y hy hact
    obtain ⟨x, hx, hyx, hyax⟩ := back hy
    rw [hyx]
    exact h.inForce hx (hyax ▸ hact)
  · intro p i hi j y hy hyp
    obtain ⟨x, hx, hyx, _⟩ := back hy
    exact h.newest hi hx (hyx.symm.trans hyp)

theorem withBus (h : r.Sound) (b : Bus) : Sound { r with bus := b } := ⟨h.known, h.inForce, h.newest⟩

end Sound
end Registry

namespace Session
variable {s s' : Session}

/-- A change keeps the counters of every record, and starts those of a new one at zero. -/
theorem Change.record (h : s.Change s') {id : RecordId} {y : Record Nat}
    (hy : s'.registry.records[id]? = some y) :
    (∃ x, s.registry.records[id]? = some x ∧ x.Becomes y ∧ y.counters = x.counters) ∨
      s.registry.records[id]? = none ∧ y.counters = { lastReceived := 0 } ∧
        s'.history = s.history ++ [.registered id y.provider] := by
  have same (hy : s.registry.records[id]? = some y) :
      (∃ x, s.registry.records[id]? = some x ∧ x.Becomes y ∧ y.counters = x.counters) ∨
        s.registry.records[id]? = none ∧ y.counters = { lastReceived := 0 } ∧
          s'.history = s.history ++ [.registered id y.provider] :=
    .inl ⟨y, hy, .refl y, rfl⟩
  cases h with
  | register c =>
    simp only [registry_noted, registry_onRegistry, Registry.getElem?_insert] at hy
    split at hy
    · cases hy
      exact .inr ⟨by simp [*], rfl, by simp [*]⟩
    · exact same hy
  | remove hp =>
    simp only [registry_noted, registry_onRegistry, Registry.getElem?_remove _ hp] at hy
    split at hy
    · obtain ⟨x, hx, rfl⟩ := Option.map_eq_some_iff.mp hy
      exact .inl ⟨x, hx, .deactivate x, rfl⟩
    · exact same hy
  | dispose =>
    simp only [registry_noted, registry_onRegistry, Registry.getElem?_dispose] at hy
    split at hy
    · obtain ⟨x, hx, rfl⟩ := Option.map_eq_some_iff.mp hy
      exact .inl ⟨x, hx, .deactivate x, rfl⟩
    · exact same hy
  | _ => exact same hy

theorem Change.size_le (h : s.Change s') :
    s.registry.records.size ≤ s'.registry.records.size := by
  cases h with
  | register c => simp [Registry.insert]
  | remove hp => simp [Registry.remove, hp, Registry.changeRecord]
  | dispose => exact Nat.le_of_eq s.registry.size_dispose.symm
  | _ => exact Nat.le_refl _

/-- A change removes no record. -/
theorem Change.record_forth (h : s.Change s') {id : RecordId} {x : Record Nat}
    (hx : s.registry.records[id]? = some x) :
    ∃ y, s'.registry.records[id]? = some y ∧ x.Becomes y ∧ y.counters = x.counters := by
  have hlt : id < s'.registry.records.size :=
    Nat.lt_of_lt_of_le (Array.getElem?_eq_some_iff.mp hx).1 h.size_le
  refine ⟨_, Array.getElem?_eq_getElem hlt, ?_⟩
  rcases h.record (Array.getElem?_eq_getElem hlt) with ⟨z, hz, hzy⟩ | ⟨hn, _⟩
  · rw [hx, Option.some.injEq] at hz
    exact hz ▸ hzy
  · simp [hx] at hn

theorem Change.sound (h : s.Change s') (hs : s.registry.Sound) : s'.registry.Sound := by
  cases h with
  | bus b => exact hs.withBus b
  | register c _ new => exact hs.insert new c
  | remove hp => exact hs.remove hp
  | dispose => exact hs.dispose
  | _ => exact hs

variable {d : Dispatch}

private theorem becomes_next (x : Record Nat) :
    x.Becomes { x with counters := x.counters.next } :=
  ⟨rfl, rfl, id, Nat.le_succ _, Nat.le_refl _⟩

private theorem becomes_receive (x : Record Nat) (g : Nat) :
    x.Becomes { x with counters := x.counters.receive g } :=
  ⟨rfl, rfl, id, by simp, by simp [Counters.lastReceived_receive]⟩

private theorem changeRecord_forth {r : Registry} {id i : RecordId} {x : Record Nat}
    {f : Record Nat → Record Nat} (hf : x.Becomes (f x)) (hx : r.records[i]? = some x) :
    ∃ y, (r.changeRecord id f).records[i]? = some y ∧ x.Becomes y := by
  rw [Registry.getElem?_changeRecord, hx]
  by_cases hi : id = i
  · exact ⟨f x, by simp [hi], hf⟩
  · exact ⟨x, by simp [hi], .refl x⟩

/-- A step removes no record. -/
theorem Step.record (h : s.Step s') {id : RecordId} {x : Record Nat}
    (hx : s.registry.records[id]? = some x) :
    ∃ y, s'.registry.records[id]? = some y ∧ x.Becomes y := by
  cases h with
  | change h =>
    obtain ⟨y, hy, hxy, _⟩ := h.record_forth hx
    exact ⟨y, hy, hxy⟩
  | opens => exact changeRecord_forth (becomes_next x) hx
  | accepts => exact changeRecord_forth (becomes_receive x _) hx
  | _ => exact ⟨x, hx, .refl x⟩

theorem Step.sound (h : s.Step s') (hs : s.registry.Sound) : s'.registry.Sound := by
  cases h with
  | change h => exact h.sound hs
  | opens => exact hs.changeRecord (fun _ => rfl) fun _ => rfl
  | accepts => exact hs.changeRecord (fun _ => rfl) fun _ => rfl
  | _ => exact hs

theorem Path.record (h : s.Path s') {id : RecordId} {x : Record Nat}
    (hx : s.registry.records[id]? = some x) :
    ∃ y, s'.registry.records[id]? = some y ∧ x.Becomes y := by
  induction h with
  | refl => exact ⟨x, hx, .refl x⟩
  | tail _ step ih =>
    obtain ⟨y, hy, hxy⟩ := ih
    obtain ⟨z, hz, hyz⟩ := step.record hy
    exact ⟨z, hz, hxy.trans hyz⟩

theorem Path.providerOf (h : s.Path s') {id : RecordId} {p : ProviderId}
    (hp : s.providerOf id = some p) : s'.providerOf id = some p := by
  obtain ⟨x, hx, rfl⟩ := Option.map_eq_some_iff.mp hp
  obtain ⟨y, hy, hxy⟩ := h.record hx
  simp [Session.providerOf, hy, hxy.provider]

/-- A step keeps the providers of registrations, or it writes down a new registration. -/
theorem Step.providerOf_back (h : s.Step s') {id : RecordId} {p : ProviderId}
    (hp : s'.providerOf id = some p) :
    s.providerOf id = some p ∨ s'.history = s.history ++ [.registered id p] := by
  have counted {i : RecordId} (f : Counters Nat → Counters Nat)
      (hp : ((s.registry.changeRecord i fun x => { x with counters := f x.counters }).records[id]?).map
        Record.provider = some p) : s.providerOf id = some p := by
    rw [Registry.getElem?_changeRecord] at hp
    split at hp
    · simpa [Session.providerOf, Function.comp_def] using hp
    · exact hp
  cases h with
  | change h =>
    obtain ⟨y, hy, rfl⟩ := Option.map_eq_some_iff.mp hp
    rcases h.record hy with ⟨x, hx, hxy, _⟩ | ⟨_, _, hJ⟩
    · exact .inl (by rw [providerOf_eq hx, hxy.provider])
    · exact .inr hJ
  | opens => exact .inl (counted Counters.next hp)
  | @accepts t d r x => exact .inl (counted (fun c => c.receive d.generation) hp)
  | _ => exact .inl hp

/-- A registration that is out of force stays so. -/
theorem Path.inForce (h : s.Path s') {id : RecordId} {x : Record Nat}
    (hx : s.registry.records[id]? = some x) (hf : s'.InForce id) : s.InForce id := by
  obtain ⟨y, hy, hxy⟩ := h.record hx
  obtain ⟨z, hz, ha⟩ := hf
  rw [hy, Option.some.injEq] at hz
  exact ⟨x, hx, hxy.activated (hz ▸ ha)⟩

end Session
end LintBroker

import LintBroker.Proofs.UpdateOrder
import LintBroker.Proofs.Endings

/-!
# Who is called while out of force

Whether a registration is in force is looked at when a round is chosen, and not again when the
dispatch calls the provider. So a provider is called through a registration that is out of force
exactly if that was taken back in between: by whoever removed the provider or disposed of the
registry after the dispatch was opened. The journal tells these entries apart, and it keeps no other
record of what is in force.
-/
namespace LintBroker

namespace Entry

/-- Whether an entry tells that the registration was taken out of force, alone or with all others. -/
def Retires (id : RecordId) : Entry → Prop
  | .removed i _ => i = id
  | .disposed => True
  | _ => False

theorem not_retires_of_isPlain {e : Entry} (h : e.isPlain = true) (id : RecordId) :
    ¬ e.Retires id := by
  cases e with
  | removed | disposed => cases h
  | _ => exact nofun

end Entry

namespace Session
variable {s s' : Session} {id : RecordId} {x : Record Nat} {d : Dispatch} {p : ProviderId}

theorem inForce_iff_of_same (hr : s'.registry.records[id]?.map Record.activated =
      s.registry.records[id]?.map Record.activated)
    (hJ : ∀ e, s'.history = s.history ++ [e] → ¬ e.Retires id) :
    s'.InForce id ↔ s.InForce id ∧ ∀ e, s'.history = s.history ++ [e] → ¬ e.Retires id := by
  have flag (u : Session) :
      u.InForce id ↔ u.registry.records[id]?.map Record.activated = some true := by
    simp [InForce]
  rw [flag, flag, hr]
  exact (and_iff_left hJ).symm

theorem inForce_iff_of_unwritten (hr : s'.registry.records[id]?.map Record.activated =
      s.registry.records[id]?.map Record.activated) (hJ : s'.history = s.history) :
    s'.InForce id ↔ s.InForce id ∧ ∀ e, s'.history = s.history ++ [e] → ¬ e.Retires id :=
  inForce_iff_of_same hr fun e he => by simp [hJ] at he

theorem inForce_iff_of_written {e : Entry} (hr : s'.registry.records[id]?.map Record.activated =
      s.registry.records[id]?.map Record.activated) (hJ : s'.history = s.history ++ [e])
    (stays : ¬ e.Retires id) :
    s'.InForce id ↔ s.InForce id ∧ ∀ e, s'.history = s.history ++ [e] → ¬ e.Retires id := by
  refine inForce_iff_of_same hr fun e' he => ?_
  obtain rfl : e = e' := by simpa [hJ] using he
  exact stays

/-- A step that takes a registration out of force, and says so. -/
theorem inForce_iff_of_retired {e : Entry} (hJ : s'.history = s.history ++ [e])
    (retires : e.Retires id) (out : ¬ s'.InForce id) :
    s'.InForce id ↔ s.InForce id ∧ ∀ e, s'.history = s.history ++ [e] → ¬ e.Retires id :=
  iff_of_false out fun h => h.2 e hJ retires

theorem activated_changeRecord {r : Registry} {i : RecordId} {f : Record Nat → Record Nat}
    (hf : ∀ x, (f x).activated = x.activated) :
    (r.changeRecord i f).records[id]?.map Record.activated =
      r.records[id]?.map Record.activated := by
  rw [Registry.getElem?_changeRecord]
  split
  · simp [Function.comp_def, hf]
  · rfl

theorem Change.inForce_iff (h : s.Change s') (sound : s.registry.Sound)
    (hx : s.registry.records[id]? = some x) :
    s'.InForce id ↔ s.InForce id ∧ ∀ e, s'.history = s.history ++ [e] → ¬ e.Retires id := by
  cases h with
  | note plain =>
    exact inForce_iff_of_written rfl (history_noted ..) (Entry.not_retires_of_isPlain plain id)
  | reshape | alter => exact inForce_iff_of_written rfl (history_noted ..) False.elim
  | register c usable new =>
    have old : id ≠ s.registry.records.size :=
      Nat.ne_of_lt (Array.getElem?_eq_some_iff.mp hx).1
    refine inForce_iff_of_written ?_ (history_noted ..) False.elim
    simp [Registry.getElem?_insert, old]
  | @remove p i hp =>
    by_cases own : i = id
    · refine inForce_iff_of_retired (e := .removed i p) (by simp) own ?_
      rintro ⟨y, hy, ha⟩
      rw [registry_noted, registry_onRegistry, Registry.getElem?_remove _ hp, if_pos own] at hy
      obtain ⟨z, _, rfl⟩ := Option.map_eq_some_iff.mp hy
      cases ha
    · refine inForce_iff_of_written (e := .removed i p) ?_ (by simp) own
      simp [Registry.getElem?_remove _ hp, own]
  | dispose =>
    refine inForce_iff_of_retired (e := .disposed) (by simp) trivial ?_
    rintro ⟨y, hy, ha⟩
    rw [registry_noted, registry_onRegistry, Registry.getElem?_dispose] at hy
    split at hy
    · obtain ⟨z, _, rfl⟩ := Option.map_eq_some_iff.mp hy
      cases ha
    · exact absurd (Table.mem_values_of_get? (sound.inForce hy ha)) ‹_›
  | _ => exact inForce_iff_of_unwritten rfl rfl

/-- A registration goes on being in force exactly if a step does not say that it was taken out. -/
theorem Step.inForce_iff (h : s.Step s') (sound : s.registry.Sound)
    (hx : s.registry.records[id]? = some x) :
    s'.InForce id ↔ s.InForce id ∧ ∀ e, s'.history = s.history ++ [e] → ¬ e.Retires id := by
  cases h with
  | change h => exact h.inForce_iff sound hx
  | opens | accepts =>
    exact inForce_iff_of_written (activated_changeRecord fun _ => rfl) (history_noted ..) False.elim
  | begins | enters | invokes | answers | surfaces | closes =>
    exact inForce_iff_of_written rfl (history_noted ..) False.elim
  | _ => exact inForce_iff_of_unwritten rfl rfl

/-- A registration goes on being in force exactly as long as nothing says that it was taken out. -/
theorem Path.inForce_iff (h : s.Path s') (c : s.Coherent)
    (hx : s.registry.records[id]? = some x) {K : List Entry} (hK : s'.history = s.history ++ K) :
    s'.InForce id ↔ s.InForce id ∧ ∀ e ∈ K, ¬ e.Retires id := by
  induction h generalizing K with
  | refl =>
    obtain rfl : K = [] := by simpa using hK
    simp
  | @tail u v path step ih =>
    obtain ⟨K₁, hu⟩ := Path.history_prefix path
    obtain ⟨y, hy, _⟩ := Path.record path hx
    rw [step.inForce_iff (c.path path).sound hy, ih hu, and_assoc]
    refine and_congr_right fun _ => ?_
    rcases step.history_concat with hv | ⟨e, hv⟩
    · obtain rfl : K₁ = K := List.append_cancel_left (hu.symm.trans (hv.symm.trans hK))
      simp [hv]
    · obtain rfl : K₁ ++ [e] = K := by
        rw [hv, hu, List.append_assoc] at hK
        exact List.append_cancel_left hK
      simp [hv, or_imp, forall_and]

/-- What is known when a provider is called. -/
theorem Step.invoked (h : s.Step s') (hJ : s'.history = s.history ++ [.invoked d p]) :
    ∃ t, s.Runs t (.dispatch d) ∧ s.providerOf d.record = some p := by
  cases h with
  | change h =>
    cases h with
    | note plain =>
      obtain rfl : _ = Entry.invoked d p := by simpa using hJ
      cases plain
    | settings =>
      have unwritten : s.history = s.history ++ [.invoked d p] := hJ
      simp at unwritten
    | _ => simp at hJ
  | invokes calls runs stage hp =>
    simp only [history_noted, history_onHost, List.append_cancel_left_eq, List.cons.injEq, and_true,
      Entry.invoked.injEq] at hJ
    obtain ⟨rfl, rfl⟩ := hJ
    exact ⟨_, runs, hp⟩
  | _ => simp at hJ

/-- A registration is in force when it is written down. -/
theorem Step.registered (h : s.Step s') (hJ : s'.history = s.history ++ [.registered id p]) :
    s'.InForce id := by
  cases h with
  | change h =>
    cases h with
    | note plain =>
      obtain rfl : _ = Entry.registered id p := by simpa using hJ
      cases plain
    | settings =>
      have unwritten : s.history = s.history ++ [.registered id p] := hJ
      simp at unwritten
    | register c =>
      obtain ⟨rfl, rfl⟩ : s.registry.records.size = id ∧ _ = p := by simpa using hJ
      exact ⟨_, by rw [registry_noted, registry_onRegistry, Registry.getElem?_insert, if_pos rfl], rfl⟩
    | _ => simp at hJ
  | _ => simp at hJ

/-- At every moment, what the journal says since it was written down tells whether a registration is
in force. -/
theorem inForce_iff_of_registered {u : Session} (h : s.opening.Path u) {A B : List Entry}
    (hJ : u.history = A ++ .registered id p :: B) : u.InForce id ↔ ∀ e ∈ B, ¬ e.Retires id := by
  obtain ⟨w, w', hw, step, path, rfl, hw'⟩ := h.split hJ (Nat.zero_le _)
  have now := step.registered hw'
  have ⟨x, hx, _⟩ := now
  have later : u.history = w'.history ++ B := by
    rw [hJ, hw']
    simp
  rw [path.inForce_iff (s.coherent_opening.path (hw.tail step)) hx later]
  exact and_iff_right now

/-- A provider is called for a dispatch that was opened while its registration was in force. At the
moment of the call it still is exactly if nothing written since says that it was taken out of force.
-/
theorem invoked_in_force_iff (s : Session) (moves : List Move) {J₁ J₂ : List Entry} {d : Dispatch}
    {p : ProviderId} (hJ : (s.opening.run moves).history = J₁ ++ .invoked d p :: J₂) :
    (∃ u, s.opening.Path u ∧ u.Path (s.opening.run moves) ∧ u.history = J₁ ∧
      u.providerOf d.record = some p) ∧
    ∃ K₁ K₂, J₁ = K₁ ++ .dispatched d :: K₂ ∧
      (∀ u, s.opening.Path u → u.history = K₁ → u.InForce d.record) ∧
      ∀ u, s.opening.Path u → u.history = J₁ →
        (u.InForce d.record ↔ ∀ e ∈ K₂, ¬ e.Retires d.record) := by
  obtain ⟨u, v, hu, c, step, hv, hJu, hJv⟩ := step_of_split (s.comes_opening moves).path hJ
  obtain ⟨t, runs, hp⟩ := step.invoked hJv
  obtain ⟨K₁, K₂, split⟩ := List.append_of_mem (c.dispatched_of_runs runs)
  obtain ⟨w, w', hw, cw, opens, _, rfl, hJw⟩ := step_of_split hu split
  obtain ⟨x, hx, activated, _⟩ := opens.opened hJw
  obtain ⟨A, B, since⟩ := List.append_of_mem (registered_of_provider hw (providerOf_eq hx))
  have kept := (inForce_iff_of_registered hw since).mp ⟨x, hx, activated⟩
  subst hJu
  refine ⟨⟨u, hu, .head step hv, rfl, hp⟩, w.history, K₂, split, fun u' hu' hJ' => ?_,
    fun u' hu' hJ' => ?_⟩
  · exact (inForce_iff_of_registered hu' (hJ'.trans since)).mpr kept
  · have since' : u'.history = A ++ .registered d.record x.provider :: (B ++ .dispatched d :: K₂) := by
      rw [hJ', split, since]
      simp
    rw [inForce_iff_of_registered hu' since']
    constructor
    · exact fun all e he => all e (by simp [he])
    · intro all e he
      rcases List.mem_append.mp he with he | he
      · exact kept e he
      · rcases List.mem_cons.mp he with rfl | he
        · exact nofun
        · exact all e he

/-- What a history tells of a registration: that it was written down, that it was taken out, or that
its provider was called through it. -/
inductive Fate
  | registered
  | removed
  | invoked
deriving DecidableEq

/-- What an entry tells of which registration of which provider. -/
def fate? : Entry → Option (Fate × RecordId × ProviderId)
  | .registered id p => some (.registered, id, p)
  | .removed id p => some (.removed, id, p)
  | .invoked d p => some (.invoked, d.record, p)
  | _ => none

theorem eq_registered_of_fate {e : Entry} (h : fate? e = some (.registered, id, p)) :
    e = .registered id p := by
  cases e <;> simp_all [fate?]

theorem eq_removed_of_fate {e : Entry} (h : fate? e = some (.removed, id, p)) :
    e = .removed id p := by
  cases e <;> simp_all [fate?]

theorem invoked_of_fate {J : List Entry} {fates : List (Fate × RecordId × ProviderId)}
    (h : J.filterMap fate? = (.invoked, id, p) :: fates) :
    ∃ J₁ J₂ d, J = J₁ ++ .invoked d p :: J₂ ∧ d.record = id := by
  obtain ⟨J₁, e, J₂, rfl, _, he, _⟩ := List.filterMap_eq_cons_iff.mp h
  cases e with
  | invoked d q =>
    obtain ⟨-, rfl, rfl⟩ : Fate.invoked = .invoked ∧ d.record = id ∧ q = p := by simpa [fate?] using he
    exact ⟨J₁, J₂, d, rfl, rfl⟩
  | _ => simp [fate?] at he

/-- A provider that nobody removes is called while it is registered. -/
theorem sample_invoked_in_force :
    let last := (sample []).opening.run (.act (.add "p" false) :: sampleLint)
    ∃ J₁ J₂ d, last.history = J₁ ++ .invoked d "p" :: J₂ ∧
      (∃ u, (sample []).opening.Path u ∧ u.Path last ∧ u.history = J₁ ∧
        u.providerOf d.record = some "p") ∧
      ∃ K₁ K₂, J₁ = K₁ ++ .dispatched d :: K₂ ∧
        (∀ u, (sample []).opening.Path u → u.history = K₁ → u.InForce d.record) ∧
        ∀ u, (sample []).opening.Path u → u.history = J₁ →
          (u.InForce d.record ↔ ∀ e ∈ K₂, ¬ e.Retires d.record) := by
  intro last
  have fates : last.history.filterMap fate? = [(.registered, 0, "p"), (.invoked, 0, "p")] := by
    decide +kernel
  obtain ⟨J, e, rest, hJ, _, _, later⟩ := List.filterMap_eq_cons_iff.mp fates
  obtain ⟨J₁, J₂, d, rfl, _⟩ := invoked_of_fate later
  have split : last.history = (J ++ e :: J₁) ++ .invoked d "p" :: J₂ := by rw [hJ]; simp
  exact ⟨_, J₂, d, split, invoked_in_force_iff (sample []) _ split⟩

/-- A provider that a listener removes when it hears of the beginning is called through a registration
that is out of force. -/
theorem sample_invoked_out_of_force :
    let last := (sample [.remove "p"]).opening.run (.act (.add "p" false) :: sampleLint)
    ∃ J₁ J₂ d, last.history = J₁ ++ .invoked d "p" :: J₂ ∧
      (∃ u, (sample [.remove "p"]).opening.Path u ∧ u.Path last ∧ u.history = J₁) ∧
      ∀ u, (sample [.remove "p"]).opening.Path u → u.history = J₁ → ¬ u.InForce d.record := by
  intro last
  have fates : last.history.filterMap fate? =
      [(.registered, 0, "p"), (.removed, 0, "p"), (.invoked, 0, "p")] := by decide +kernel
  obtain ⟨A, e, rest, hJ, _, written, later⟩ := List.filterMap_eq_cons_iff.mp fates
  obtain ⟨B, e', rest', rfl, _, taken, last'⟩ := List.filterMap_eq_cons_iff.mp later
  obtain ⟨C, J₂, d, rfl, hd⟩ := invoked_of_fate last'
  obtain rfl := eq_registered_of_fate written
  obtain rfl := eq_removed_of_fate taken
  let J₁ := A ++ .registered 0 "p" :: (B ++ .removed 0 "p" :: C)
  have split : last.history = J₁ ++ .invoked d "p" :: J₂ := by simp [hJ, J₁]
  obtain ⟨u, hu, rest, now⟩ := (comes_opening (sample [.remove "p"]) _).path.moment split
    (Nat.zero_le _)
  refine ⟨J₁, J₂, d, split, ⟨u, hu, rest, now⟩, fun u' hu' hJ' => ?_⟩
  rw [hd, inForce_iff_of_registered hu' hJ']
  exact fun none => none (.removed 0 "p") (by simp) rfl

end Session
end LintBroker

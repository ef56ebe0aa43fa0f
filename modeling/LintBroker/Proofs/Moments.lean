import LintBroker.Proofs.Walk

/-!
# Moments of a history

A step writes at most one entry. So every entry of a history was written by one step of the path that
led there, and every beginning of a history was all of it at some moment.
-/
namespace LintBroker
namespace Session
variable {s s' : Session} {J₁ J₂ : List Entry} {e : Entry}

theorem Step.history_concat (h : s.Step s') :
    s'.history = s.history ∨ ∃ e, s'.history = s.history ++ [e] := by
  cases h with
  | change h =>
    cases h with
    | note | reshape | alter | register | remove | dispose => exact .inr ⟨_, history_noted _ _⟩
    | _ => exact .inl rfl
  | opens | begins | enters | invokes | answers | accepts | surfaces | closes =>
    exact .inr ⟨_, history_noted _ _⟩
  | _ => exact .inl rfl

theorem Path.history_prefix (h : s.Path s') : ∃ J, s'.history = s.history ++ J := by
  induction h with
  | refl => exact ⟨[], by simp⟩
  | tail _ step ih =>
    obtain ⟨J, hJ⟩ := ih
    rcases step.history_concat with h | ⟨e, h⟩
    · exact ⟨J, h.trans hJ⟩
    · exact ⟨J ++ [e], by rw [h, hJ, List.append_assoc]⟩

theorem Path.mem_history (h : s.Path s') (he : e ∈ s.history) : e ∈ s'.history := by
  obtain ⟨J, hJ⟩ := h.history_prefix
  rw [hJ]
  exact List.mem_append_left J he

/-- The step that wrote an entry. -/
theorem Path.split (h : s.Path s') (hJ : s'.history = J₁ ++ e :: J₂)
    (hs : s.history.length ≤ J₁.length) :
    ∃ u v, s.Path u ∧ u.Step v ∧ v.Path s' ∧ u.history = J₁ ∧ v.history = J₁ ++ [e] := by
  induction h generalizing J₂ with
  | refl =>
    have := congrArg List.length hJ
    simp at this
    omega
  | @tail u v path step ih =>
    rcases step.history_concat with hv | ⟨e', hv⟩
    · obtain ⟨w, w', hw, hstep, hpath, hrest⟩ := ih (hv ▸ hJ)
      exact ⟨w, w', hw, hstep, hpath.tail step, hrest⟩
    · rcases List.eq_nil_or_concat J₂ with rfl | ⟨J₂', e'', rfl⟩
      · obtain ⟨hu, he⟩ := List.append_inj' (hv.symm.trans hJ) rfl
        exact ⟨u, v, path, step, .refl, hu, hJ⟩
      · have hJ' : v.history = (J₁ ++ e :: J₂') ++ [e''] := by simpa using hJ
        have hu : u.history = J₁ ++ e :: J₂' := (List.append_inj' (hv.symm.trans hJ') rfl).1
        obtain ⟨w, w', hw, hstep, hpath, hrest⟩ := ih hu
        exact ⟨w, w', hw, hstep, hpath.tail step, hrest⟩

/-- The moment at which a beginning of the history was all of it. -/
theorem Path.moment (h : s.Path s') (hJ : s'.history = J₁ ++ J₂)
    (hs : s.history.length ≤ J₁.length) : ∃ u, s.Path u ∧ u.Path s' ∧ u.history = J₁ := by
  cases J₂ with
  | nil => exact ⟨s', h, .refl, by simpa using hJ⟩
  | cons e J₂ =>
    obtain ⟨u, v, hu, step, hv, hJ, _⟩ := h.split hJ hs
    exact ⟨u, hu, .head step hv, hJ⟩

/-- An entry that is written later is written by a step. -/
theorem Path.later (h : s.Path s') (hJ : s'.history = s.history ++ J₂) (he : e ∈ J₂) :
    ∃ u v, s.Path u ∧ u.Step v ∧ v.Path s' ∧ v.history = u.history ++ [e] := by
  obtain ⟨K₁, K₂, rfl⟩ := List.append_of_mem he
  rw [← List.append_assoc] at hJ
  obtain ⟨u, v, hu, step, hv, hJu, hJv⟩ := h.split hJ (by simp)
  exact ⟨u, v, hu, step, hv, by rw [hJv, hJu]⟩

/-- Every registration was written down. -/
theorem registered_of_provider (h : s.opening.Path s') {id : RecordId} {p : ProviderId}
    (hp : s'.providerOf id = some p) : .registered id p ∈ s'.history := by
  induction h with
  | refl => simp [opening, providerOf] at hp
  | tail _ step ih =>
    rcases step.providerOf_back hp with hp | hJ
    · exact Path.mem_history (.single step) (ih hp)
    · rw [hJ]
      exact List.mem_append_right _ (List.mem_singleton_self _)

end Session
end LintBroker

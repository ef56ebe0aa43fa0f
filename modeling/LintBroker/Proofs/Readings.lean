import LintBroker.Proofs.Moments

/-!
# Readings along a path

A provider's attributes and the answers of a surface change only by actions, and the journal says
what they were changed to. So what holds of a reading at the start, and of everything that the
journal says it was changed to, holds of it all the time.
-/
namespace LintBroker
namespace Session
variable {s s' : Session} {p : ProviderId} {id : SurfaceId} {q : Surface.Question}

theorem attributesOf_put (x : Provider) (p' : ProviderId) :
    (s.onHost fun h => { h with providers := h.providers.put p' x }).attributesOf p =
      if p' = p then .ok x.attributes else s.attributesOf p := by
  by_cases hp : p' = p
  · subst hp
    simp [attributesOf]
  · simp [attributesOf, hp]

/-- A step leaves the attributes of a provider alone, or the journal says what they are now. -/
theorem Step.attributesOf (h : s.Step s') (p : ProviderId) :
    s'.attributesOf p = s.attributesOf p ∨
      ∃ a, s'.history = s.history ++ [.reshaped p a] ∧ s'.attributesOf p = .ok a := by
  cases h with
  | change h =>
    cases h with
    | host h surfaces providers =>
      refine .inl ?_
      simp [Session.attributesOf, providers]
    | @reshape p' x a hx =>
      have put := s.attributesOf_put (p := p) { x with attributes := a } p'
      by_cases hp : p' = p
      · subst hp
        rw [if_pos rfl] at put
        exact .inr ⟨a, by simp, put⟩
      · rw [if_neg hp] at put
        exact .inl put
    | _ => exact .inl rfl
  | _ => exact .inl rfl

/-- A step leaves the answers of a surface alone, or the journal says what they are now. -/
theorem Step.answerOf (h : s.Step s') (id : SurfaceId) (q : Surface.Question) :
    s'.answerOf id q = s.answerOf id q ∨
      ∃ v, s'.history = s.history ++ [.altered id q v] ∧ s'.answerOf id q = .ok v := by
  cases h with
  | change h =>
    cases h with
    | host h surfaces =>
      refine .inl ?_
      simp [Session.answerOf, surfaces]
    | @alter id' x q' v hx =>
      by_cases hid : id' = id
      · subst hid
        cases hf : x.failures q with
        | some f => exact .inl (by simp [Session.answerOf, Surface.answer, Surface.change, hx, hf])
        | none =>
          by_cases hq : q = q'
          · subst hq
            exact .inr ⟨v, by simp,
              by simp [Session.answerOf, Surface.answer, Surface.change, hf]⟩
          · exact .inl (by simp [Session.answerOf, Surface.answer, Surface.change, hx, hf, hq])
      · exact .inl (by simp [Session.answerOf, hid])
    | _ => exact .inl rfl
  | _ => exact .inl rfl

/-- If a step changes a reading only together with an entry that says to what, then what holds of the
reading, and of all that later entries say, goes on holding. -/
theorem Path.reading {α β : Type} {read : Session → α} {entry : β → Entry} {value : β → α}
    (one : ∀ {u v : Session}, u.Step v → read v = read u ∨
      ∃ b, v.history = u.history ++ [entry b] ∧ read v = value b)
    (h : s.Path s') {J : List Entry} (hJ : s'.history = s.history ++ J) {P : α → Prop}
    (start : P (read s)) (changed : ∀ b, entry b ∈ J → P (value b)) : P (read s') := by
  induction h generalizing J with
  | refl => exact start
  | @tail u v path step ih =>
    obtain ⟨J₁, hu⟩ := Path.history_prefix path
    obtain ⟨J₂, hv⟩ := Path.history_prefix (.single step)
    obtain rfl : J₁ ++ J₂ = J := by
      rw [hv, hu, List.append_assoc] at hJ
      exact List.append_cancel_left hJ
    rcases one step with he | ⟨b, hb, he⟩
    · rw [he]
      exact ih hu fun b hb => changed b (List.mem_append_left _ hb)
    · obtain rfl := List.append_cancel_left (hb.symm.trans hv)
      rw [he]
      exact changed b (List.mem_append_right _ (List.mem_singleton_self _))

theorem Path.attributesOf (h : s.Path s') {J : List Entry} (hJ : s'.history = s.history ++ J)
    {P : Except Failure Attributes → Prop} (start : P (s.attributesOf p))
    (changed : ∀ a, .reshaped p a ∈ J → P (.ok a)) : P (s'.attributesOf p) :=
  Path.reading (fun step => step.attributesOf p) h hJ start changed

theorem Path.answerOf (h : s.Path s') {J : List Entry} (hJ : s'.history = s.history ++ J)
    {P : Except Failure Value → Prop} (start : P (s.answerOf id q))
    (changed : ∀ v, .altered id q v ∈ J → P (.ok v)) : P (s'.answerOf id q) :=
  Path.reading (fun step => step.answerOf id q) h hJ start changed

/-- Once the provider of a dispatch has begun, its attributes change only to those that give it a
scope. -/
def ScopeStaysValid (s : Session) (d : Dispatch) (p : ProviderId) : Prop :=
  ∀ (J₁ J₂ : List Entry) (f : Value) (a : Attributes),
    s.history = J₁ ++ .emitted d (.begin p f) :: J₂ → .reshaped p a ∈ J₂ →
      ∃ scope, a.scope = .ok scope

theorem Step.scope_of_begin {d : Dispatch} {f : Value} (h : s.Step s')
    (hJ : s'.history = s.history ++ [.emitted d (.begin p f)]) :
    ∃ scope, s'.scopeOf p = .ok scope := by
  cases h with
  | change h =>
    have := h.mark?_of_concat hJ
    simp [Entry.mark?] at this
  | begins runs known stage hp hs =>
    simp only [history_noted, List.append_cancel_left_eq, List.cons.injEq, and_true,
      Entry.emitted.injEq, Notice.begin.injEq] at hJ
    obtain ⟨_, rfl, _⟩ := hJ
    exact ⟨_, hs⟩
  | _ => simp at hJ

theorem ScopeStaysValid.scopeOf {last u : Session} {d : Dispatch} {f : Value}
    (valid : last.ScopeStaysValid d p) (hu : s.opening.Path u) (rest : u.Path last)
    (begun : .emitted d (.begin p f) ∈ u.history) : ∃ scope, u.scopeOf p = .ok scope := by
  obtain ⟨J₁, J₂, hJ⟩ := List.append_of_mem begun
  obtain ⟨K, hK⟩ := rest.history_prefix
  obtain ⟨w, w', _, step, path, rfl, hw'⟩ := hu.split hJ (Nat.zero_le _)
  have later : u.history = w'.history ++ J₂ := by
    rw [hJ, hw']
    simp
  refine path.attributesOf (P := fun r => ∃ scope, (r >>= Attributes.scope) = .ok scope) later
    (step.scope_of_begin hw') fun a ha => ?_
  refine valid w.history (J₂ ++ K) f a ?_ (List.mem_append_left _ ha)
  rw [hK, hJ]
  simp

end Session
end LintBroker

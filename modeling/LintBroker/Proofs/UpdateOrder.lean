import LintBroker.Proofs.Moments

/-!
# Updates come in the order of dispatches

However the requests of a provider overlap and whichever of its registrations they belong to, what is
surfaced of them is surfaced in the order in which they were dispatched, at most once each. Once a
response was accepted nothing older of its registration is surfaced, and nothing that was dispatched
before a provider was out of the registry is surfaced after that, even if the provider is registered
again.
-/
namespace LintBroker

/-- What an entry makes of the registration of a provider that is in force. -/
def Entry.registration (p : ProviderId) (found : Option RecordId) : Entry → Option RecordId
  | .registered id q => if q = p then some id else found
  | .removed _ q => if q = p then none else found
  | .disposed => none
  | _ => found

/-- The registration of a provider that is in force after a history. -/
def registrationIn (J : List Entry) (p : ProviderId) : Option RecordId :=
  J.foldl (Entry.registration p) none

@[simp] theorem registrationIn_concat (J : List Entry) (e : Entry) (p : ProviderId) :
    registrationIn (J ++ [e]) p = e.registration p (registrationIn J p) := by
  simp [registrationIn]

/-- Which dispatch comes first: that of the older registration, then that of the older generation. -/
def DispatchKey.Before (k k' : DispatchKey) : Prop := k.1 < k'.1 ∨ k.1 = k'.1 ∧ k.2 < k'.2

theorem DispatchKey.Before.asymm {k k' : DispatchKey} (h : k.Before k') : ¬ k'.Before k := by
  unfold Before at *
  omega

namespace Session

/-- The dispatches to a provider, in order. -/
def dispatchesOf (s : Session) (p : ProviderId) : List Dispatch :=
  s.history.filterMap fun
    | .dispatched d => if s.providerOf d.record = some p then some d else none
    | _ => none

/-- The dispatches of which something was surfaced for a provider, in the order of the updates. -/
def updatesOf (s : Session) (p : ProviderId) : List Dispatch :=
  s.history.filterMap fun
    | .emitted d (.update q _ _) => if q = p then some d else none
    | _ => none

/-- What is promised about the order of a provider's updates. -/
structure UpdatesInOrder (s : Session) (p : ProviderId) : Prop where
  /-- Updates come in the order of their dispatches. -/
  ordered : (s.updatesOf p).Sublist (s.dispatchesOf p)
  /-- No two dispatches are the same, so that each is surfaced at most once. -/
  distinct : (s.dispatchesOf p).Nodup
  /-- Once a response was accepted nothing older of its registration is surfaced. -/
  newest : ∀ (J₁ J₂ : List Entry) (d d' : Dispatch) (n : Notice),
    s.history = J₁ ++ .accepted d true :: J₂ → .emitted d' n ∈ J₂ → n.kind = .update →
      d'.record = d.record → d.generation ≤ d'.generation
  /-- After a removal nothing that was dispatched before is surfaced. -/
  removed : ∀ (J₁ J₂ : List Entry) (id : RecordId) (d : Dispatch) (n : Notice),
    s.history = J₁ ++ .removed id p :: J₂ → .dispatched d ∈ J₁ → s.providerOf d.record = some p →
      n.kind = .update → .emitted d n ∉ J₂
  /-- Nothing that was dispatched before a moment at which the provider was not registered, for
  whatever reason, is surfaced after that. -/
  absent : ∀ (J₁ J₂ : List Entry) (d : Dispatch) (n : Notice),
    s.history = J₁ ++ J₂ → registrationIn J₁ p = none → .dispatched d ∈ J₁ →
      s.providerOf d.record = some p → n.kind = .update → .emitted d n ∉ J₂

variable {s s' : Session} {p : ProviderId}

/-- The journal tells which registrations are in force. -/
theorem Step.registrationIn (h : s.Step s')
    (hs : ∀ p, LintBroker.registrationIn s.history p = s.registry.find? p) (p : ProviderId) :
    LintBroker.registrationIn s'.history p = s'.registry.find? p := by
  cases h with
  | change h =>
    cases h with
    | @note e h =>
      have : e.registration p (LintBroker.registrationIn s.history p) =
          LintBroker.registrationIn s.history p := by
        cases e <;> first | rfl | cases h
      simpa [this] using hs p
    | register c => simp [Entry.registration, hs]
    | remove => simp [Entry.registration, hs]
    | dispose =>
      simp only [history_noted, registrationIn_concat]
      rfl
    | reshape | alter =>
      simp only [history_noted, registrationIn_concat]
      exact hs p
    | _ => exact hs p
  | opens | begins | enters | invokes | answers | accepts | surfaces | closes =>
    simp only [history_noted, registrationIn_concat]
    exact hs p
  | _ => exact hs p

theorem registrationIn_path (h : s.opening.Path s') (p : ProviderId) :
    registrationIn s'.history p = s'.registry.find? p := by
  induction h generalizing p with
  | refl => rfl
  | tail _ step ih => exact step.registrationIn ih p

/-- What is known when an update is surfaced. -/
theorem Step.update {d : Dispatch} {n : Notice} (h : s.Step s')
    (hJ : s'.history = s.history ++ [.emitted d n]) (hn : n.kind = .update) :
    ∃ x v, s.registry.records[d.record]? = some x ∧ x.activated = true ∧
      x.provider = n.provider ∧ x.counters.lastReceived = d.generation ∧
      s.Stands d.key (.answered (.ok v) .news) := by
  cases h with
  | change h =>
    have := h.mark?_of_concat hJ
    simp [Entry.mark?] at this
  | surfaces runs stage hp may hx newest =>
    simp only [history_noted, List.append_cancel_left_eq, List.cons.injEq, and_true,
      Entry.emitted.injEq] at hJ
    obtain ⟨rfl, rfl⟩ := hJ
    obtain ⟨⟨y, hy, ha⟩, _⟩ := may
    rw [hx, Option.some.injEq] at hy
    subst hy
    have hxp := Option.some.inj ((providerOf_eq hx).symm.trans hp)
    exact ⟨_, _, hx, ha, hxp, newest, stage⟩
  | begins | closes =>
    simp only [history_noted, List.append_cancel_left_eq, List.cons.injEq, and_true,
      Entry.emitted.injEq] at hJ
    obtain ⟨rfl, rfl⟩ := hJ
    cases hn
  | _ => simp at hJ

/-- What is known when a dispatch is opened. -/
theorem Step.opened {d : Dispatch} (h : s.Step s')
    (hJ : s'.history = s.history ++ [.dispatched d]) :
    ∃ x, s.registry.records[d.record]? = some x ∧ x.activated = true ∧
      d.generation = x.counters.latest + 1 := by
  cases h with
  | change h =>
    have := h.mark?_of_concat hJ
    simp [Entry.mark?] at this
  | opens runs hx ha =>
    simp only [history_noted, history_onRegistry, List.append_cancel_left_eq, List.cons.injEq,
      and_true, Entry.dispatched.injEq] at hJ
    subst hJ
    exact ⟨_, hx, ha, rfl⟩
  | _ => simp at hJ

namespace Coherent
variable (c : s.Coherent)
include c

/-- A dispatch of which something was surfaced stands at that, and it was accepted. -/
theorem updated {d : Dispatch} {n : Notice} (h : .emitted d n ∈ s.history)
    (hn : n.kind = .update) :
    (∃ r, s.Stands d.key (.answered r .surfaced) ∨ s.Stands d.key (.closed r .surfaced)) ∧
      ∃ x, s.registry.records[d.record]? = some x ∧
        d.generation ≤ x.counters.lastReceived := by
  obtain ⟨y, hy⟩ := c.stage d.key
  obtain ⟨q, messages, buffer, rfl⟩ : ∃ q messages buffer, n = .update q messages buffer := by
    cases n <;> first | exact ⟨_, _, _, rfl⟩ | cases hn
  have hm := mem_life h (m := .updated messages) rfl
  rw [hy] at hm
  have accepted (ha : .accepted true ∈ life d.key s.history) :
      ∃ x, s.registry.records[d.record]? = some x ∧
        d.generation ≤ x.counters.lastReceived := by
    obtain ⟨d', hk, hd'⟩ := accepted_of_life ha
    obtain ⟨hid, hg⟩ := Prod.mk.inj hk
    obtain ⟨x, hx, hle⟩ := c.received hd'
    exact ⟨x, hid ▸ hx, hg ▸ hle⟩
  cases y with
  | answered r v =>
    cases v <;> simp [Stage.marks, Verdict.marks] at hm
    exact ⟨⟨r, .inl hy⟩, accepted (by rw [hy]; simp [Stage.marks, Verdict.marks])⟩
  | closed r v =>
    cases v <;> simp [Stage.marks, Verdict.marks] at hm
    exact ⟨⟨r, .inr hy⟩, accepted (by rw [hy]; simp [Stage.marks, Verdict.marks])⟩
  | _ => simp [Stage.marks] at hm

/-- Of two registrations of a provider, the one in force is the newer. -/
theorem newest {i : RecordId} {x : Record Nat} (hx : s.registry.records[i]? = some x)
    (ha : x.activated = true) {j : RecordId} (hj : s.providerOf j = some x.provider) : j ≤ i := by
  obtain ⟨y, hy, hp⟩ := Option.map_eq_some_iff.mp hj
  exact c.sound.newest (c.sound.inForce hx ha) hy hp

/-- When an update is surfaced, all that was surfaced for its provider before is of earlier
dispatches. -/
theorem before_update (h : s.Step s') {d d' : Dispatch} {n n' : Notice}
    (hJ : s'.history = s.history ++ [.emitted d' n']) (hn' : n'.kind = .update)
    (hd : .emitted d n ∈ s.history) (hn : n.kind = .update) (hp : n.provider = n'.provider) :
    d.key.Before d'.key := by
  obtain ⟨x, v, hx, ha, hxp, newest, stage⟩ := h.update hJ hn'
  obtain ⟨⟨r, hstage⟩, y, hy, hle⟩ := c.updated hd hn
  have hle' : d.record ≤ d'.record := c.newest hx ha (by rw [c.provider hd, hp, hxp])
  rcases Nat.lt_or_eq_of_le hle' with hlt | heq
  · exact .inl hlt
  · refine .inr ⟨heq, ?_⟩
    rw [heq, hx, Option.some.injEq] at hy
    subst hy
    refine Nat.lt_of_le_of_ne (Nat.le_trans hle (Nat.le_of_eq newest)) fun hg => ?_
    have hk : d.key = d'.key := Prod.ext heq hg
    rw [hk] at hstage
    rcases hstage with hs | hs
    · cases hs.unique stage
    · cases hs.unique stage

/-- When a dispatch is opened, all dispatches to its provider before are earlier. -/
theorem before_dispatch (h : s.Step s') {d d' : Dispatch}
    (hJ : s'.history = s.history ++ [.dispatched d']) (hd : .dispatched d ∈ s.history)
    (hp : s.providerOf d.record = s.providerOf d'.record) : d.key.Before d'.key := by
  obtain ⟨x, hx, ha, hg⟩ := h.opened hJ
  obtain ⟨y, hy, _, hle⟩ := c.generation hd
  have hle' : d.record ≤ d'.record := c.newest hx ha (hp.trans (providerOf_eq hx))
  rcases Nat.lt_or_eq_of_le hle' with hlt | heq
  · exact .inl hlt
  · refine .inr ⟨heq, ?_⟩
    rw [heq, hx, Option.some.injEq] at hy
    subst hy
    exact Nat.lt_of_le_of_lt hle (Nat.lt_of_succ_le (Nat.le_of_eq hg.symm))

end Coherent

/-- What holds of every two entries, the second written when the first was there, holds throughout a
history. -/
theorem pairwise_of_splits {α : Type} {R : α → α → Prop} {xs : List α}
    (h : ∀ ys x zs y, xs = ys ++ y :: zs → x ∈ ys → R x y) : xs.Pairwise R := by
  induction xs using List.reverseRecOn with
  | nil => exact .nil
  | append_singleton xs x ih =>
    rw [List.pairwise_append]
    refine ⟨ih fun ys z zs y hxs hz => h ys z (zs ++ [x]) y (by simp [hxs]) hz, by simp, ?_⟩
    intro z hz y hy
    rw [List.mem_singleton.mp hy]
    exact h xs z [] x rfl hz

/-- Surfacing, like dispatching, follows the order of the keys, and what is surfaced was dispatched;
so the one is a sublist of the other. -/
theorem sublist_of_before {xs ys : List Dispatch}
    (hx : xs.Pairwise fun d d' => d.key.Before d'.key)
    (hy : ys.Pairwise fun d d' => d.key.Before d'.key) (h : xs ⊆ ys) : xs.Sublist ys := by
  have antisymm : Std.Antisymm fun d d' : Dispatch => d.key.Before d'.key :=
    ⟨fun d d' h h' => absurd h' h.asymm⟩
  have nodup : xs.Nodup := hx.imp fun {d d'} h he => (he ▸ h).asymm (he ▸ h)
  exact List.sublist_of_subperm_of_pairwise (List.subperm_of_subset nodup h) hx hy

/-- A later entry of the history was written by a step from a coherent state that knew all before
it. -/
theorem step_of_split (h : s.opening.Path s') {J₁ J₂ : List Entry} {e : Entry}
    (hJ : s'.history = J₁ ++ e :: J₂) :
    ∃ u v, s.opening.Path u ∧ u.Coherent ∧ u.Step v ∧ v.Path s' ∧ u.history = J₁ ∧
      v.history = u.history ++ [e] := by
  obtain ⟨u, v, hu, step, hv, hJu, hJv⟩ := h.split hJ (Nat.zero_le _)
  exact ⟨u, v, hu, s.coherent_opening.path hu, step, hv, hJu, by rw [hJv, hJu]⟩

private theorem updates_pairwise (h : s.opening.Path s') (p : ProviderId) :
    (s'.updatesOf p).Pairwise fun d d' => d.key.Before d'.key := by
  refine List.Pairwise.filterMap _ ?_ (pairwise_of_splits (R := fun e e' => ∀ d d' n n',
    e = .emitted d n → e' = .emitted d' n' → n.kind = .update → n'.kind = .update →
      n.provider = n'.provider → d.key.Before d'.key) ?_)
  · intro e e' hR d hd d' hd'
    split at hd <;> simp at hd
    split at hd' <;> simp at hd'
    obtain ⟨rfl, rfl⟩ := hd
    obtain ⟨rfl, rfl⟩ := hd'
    exact hR _ _ _ _ rfl rfl rfl rfl rfl
  · rintro J₁ _ J₂ _ hJ hm d d' n n' rfl rfl hn hn' hp
    obtain ⟨u, v, _, c, step, _, rfl, hJv⟩ := step_of_split h hJ
    exact c.before_update step hJv hn' hm hn hp

/-- Of two dispatches to a provider the one that was opened first is the earlier. -/
theorem opened_pairwise (h : s.opening.Path s') : s'.history.Pairwise fun e e' => ∀ d d',
    e = .dispatched d → e' = .dispatched d' →
      s'.providerOf d.record = s'.providerOf d'.record → d.key.Before d'.key := by
  refine pairwise_of_splits ?_
  rintro J₁ _ J₂ _ hJ hm d d' rfl rfl hp
  obtain ⟨u, v, _, c, step, hv, rfl, hJv⟩ := step_of_split h hJ
  have path : u.Path s' := .head step hv
  obtain ⟨x, hx, _⟩ := c.generation hm
  obtain ⟨y, hy, _⟩ := step.opened hJv
  have hpx := path.providerOf (providerOf_eq hx)
  have hpy := path.providerOf (providerOf_eq hy)
  refine c.before_dispatch step hJv hm ?_
  rw [providerOf_eq hx, providerOf_eq hy, ← hpx, ← hpy, hp]

private theorem dispatches_pairwise (h : s.opening.Path s') (p : ProviderId) :
    (s'.dispatchesOf p).Pairwise fun d d' => d.key.Before d'.key := by
  refine List.Pairwise.filterMap _ ?_ (opened_pairwise h)
  intro e e' hR d hd d' hd'
  split at hd <;> simp at hd
  split at hd' <;> simp at hd'
  obtain ⟨hp, rfl⟩ := hd
  obtain ⟨hp', rfl⟩ := hd'
  exact hR _ _ rfl rfl (hp.trans hp'.symm)

/-- Nothing of a dispatch is surfaced once its registration is out of force. -/
theorem no_update_of_retired (c : s.Coherent) (h : s.Path s') {J : List Entry} {d : Dispatch}
    {n : Notice} (hJ : s'.history = s.history ++ J) (hd : .dispatched d ∈ s.history)
    (retired : ¬ s.InForce d.record) (hn : n.kind = .update) : .emitted d n ∉ J := by
  intro hm
  obtain ⟨u, v, hu, step, _, hJv⟩ := h.later hJ hm
  obtain ⟨x, _, hx, ha, _⟩ := step.update hJv hn
  obtain ⟨y, hy, _⟩ := c.generation hd
  exact retired (hu.inForce hy ⟨x, hx, ha⟩)

/-- No registration of a provider is in force when the provider is not registered. -/
theorem Coherent.retired (c : s.Coherent) {id : RecordId} (hf : s.registry.find? p = none)
    (hp : s.providerOf id = some p) : ¬ s.InForce id := by
  rintro ⟨x, hx, ha⟩
  have := c.sound.inForce hx ha
  rw [Option.some.inj ((providerOf_eq hx).symm.trans hp), hf] at this
  cases this

theorem no_update_of_absent (h : s.opening.Path s') {J₁ J₂ : List Entry} {d : Dispatch}
    {n : Notice} (hJ : s'.history = J₁ ++ J₂) (absent : registrationIn J₁ p = none)
    (hd : .dispatched d ∈ J₁) (hp : s'.providerOf d.record = some p) (hn : n.kind = .update) :
    .emitted d n ∉ J₂ := by
  obtain ⟨u, hu, path, rfl⟩ := h.moment hJ (Nat.zero_le _)
  have c := s.coherent_opening.path hu
  obtain ⟨x, hx, _⟩ := c.generation hd
  have hpu : u.providerOf d.record = some p := by
    rw [← hp, providerOf_eq hx, path.providerOf (providerOf_eq hx)]
  exact no_update_of_retired c path hJ hd
    (c.retired ((registrationIn_path hu p).symm.trans absent) hpu) hn

/-- Throughout every run, each provider's updates come in the order of its dispatches, and nothing
stale or removed is surfaced. -/
theorem updates_in_order (s : Session) (moves : List Move) (p : ProviderId) :
    (s.opening.run moves).UpdatesInOrder p := by
  have h := (s.comes_opening moves).path
  have c := s.coherent_run moves
  refine ⟨sublist_of_before (updates_pairwise h p) (dispatches_pairwise h p) ?_, ?_, ?_, ?_, ?_⟩
  · intro d hd
    simp only [updatesOf, dispatchesOf, List.mem_filterMap] at hd ⊢
    obtain ⟨e, he, hed⟩ := hd
    split at hed <;> simp at hed
    obtain ⟨rfl, rfl⟩ := hed
    exact ⟨_, c.known he rfl, by simp [c.provider he, Notice.provider]⟩
  · exact (dispatches_pairwise h p).imp fun {d d'} hb he => (he ▸ hb).asymm (he ▸ hb)
  · intro J₁ J₂ d d' n hJ hm hn hr
    obtain ⟨u, v, _, cu, step, path, rfl, hJv⟩ := step_of_split h hJ
    obtain ⟨w, w', hw, step', _, hJw⟩ := path.later (by rw [hJ, hJv]; simp) hm
    have accepted : .accepted d true ∈ v.history := by simp [hJv]
    obtain ⟨x, hx, hle⟩ := (cu.step step).received accepted
    obtain ⟨y, hy, hxy⟩ := hw.record hx
    obtain ⟨z, _, hz, _, _, newest, _⟩ := step'.update hJw hn
    rw [hr, hy, Option.some.injEq] at hz
    exact newest ▸ hz ▸ Nat.le_trans hle hxy.lastReceived
  · intro J₁ J₂ id d n hJ hd hp hn
    have split : (s.opening.run moves).history = (J₁ ++ [.removed id p]) ++ J₂ := by simpa using hJ
    refine no_update_of_absent h split ?_ (List.mem_append_left _ hd) hp hn
    simp [Entry.registration]
  · intro J₁ J₂ d n hJ absent hd hp hn
    exact no_update_of_absent h hJ absent hd hp hn

end Session
end LintBroker

import LintBroker.Proofs.Transition

/-!
# Stretches of a run

A stretch is what happens while one task has its turn, or while the host acts. The journal grows, and
what it grows by tells all that became of the bus; tasks go on as they were, and the queue grows by
steps of tasks alone. A stretch in which no entry speaks for a dispatch is silent: nothing was
opened, and nobody was told anything.
-/
namespace LintBroker

/-- The round goes on as it was, though its end may have been asked for. -/
structure Gathering.Same (g g' : Gathering) : Prop where
  members : g'.members = g.members
  ended : g'.ended = g.ended
  outcome : g'.outcome = g.outcome

namespace Gathering.Same
variable {g g' g'' : Gathering}

theorem refl (g : Gathering) : g.Same g := ⟨rfl, rfl, rfl⟩

theorem trans (h : g.Same g') (h' : g'.Same g'') : g.Same g'' :=
  ⟨h'.members.trans h.members, h'.ended.trans h.ended, h'.outcome.trans h.outcome⟩

end Gathering.Same

namespace Loop

/-- Tasks go on as they were, rounds have heard of no more members, and the queue has grown by steps
of tasks alone. -/
structure Advances (l l' : Loop) : Prop extends l.Keeps l' where
  rounds : ∀ (t : TaskId) (x : Task) (g : Gathering), l.tasks[t]? = some x →
    x.phase = .gathering g →
      ∃ y g', l'.tasks[t]? = some y ∧ y.phase = .gathering g' ∧ g.Same g'
  ready : ∃ ts : List TaskId, l'.ready = l.ready ++ ts.map Ready.step

namespace Advances
variable {l l' l'' : Loop}

theorem of_tasks_eq (h : l'.tasks = l.tasks) (ts : List TaskId)
    (hr : l'.ready = l.ready ++ ts.map Ready.step) : l.Advances l' :=
  ⟨.of_tasks_eq h, fun _ x g hx hg => ⟨x, g, h ▸ hx, hg, .refl g⟩, ts, hr⟩

theorem refl (l : Loop) : l.Advances l := .of_tasks_eq rfl [] (by simp)

theorem trans (h : l.Advances l') (h' : l'.Advances l'') : l.Advances l'' := by
  refine ⟨h.toKeeps.trans h'.toKeeps, fun t x g hx hg => ?_, ?_⟩
  · obtain ⟨y, g', hy, hg', same⟩ := h.rounds t x g hx hg
    obtain ⟨z, g'', hz, hg'', same'⟩ := h'.rounds t y g' hy hg'
    exact ⟨z, g'', hz, hg'', same.trans same'⟩
  · obtain ⟨ts, hts⟩ := h.ready
    obtain ⟨ts', hts'⟩ := h'.ready
    exact ⟨ts ++ ts', by rw [hts', hts, List.map_append, List.append_assoc]⟩

/-- A round that is waited for afterwards was waited for before. -/
theorem rounds_back (h : l.Advances l') {t : TaskId} {y : Task} {g' : Gathering}
    (hy : l'.tasks[t]? = some y) (hg : y.phase = .gathering g') :
    ∃ x g, l.tasks[t]? = some x ∧ x.phase = .gathering g ∧ x.job = y.job ∧ g.Same g' := by
  rcases h.back hy with ⟨x, hx, hxy⟩ | ⟨hf, _⟩
  · obtain ⟨g, hgx⟩ : ∃ g, x.phase = .gathering g := by
      rcases hxy.phase with hp | ⟨g, _, hgx, _⟩
      · exact ⟨g', hp.symm.trans hg⟩
      · exact ⟨g, hgx⟩
    obtain ⟨z, g'', hz, hgz, same⟩ := h.rounds t x g hx hgx
    rw [hy, Option.some.injEq] at hz
    subst hz
    rw [hg, Phase.gathering.injEq] at hgz
    exact ⟨x, g, hx, hgx, hxy.job.symm, hgz ▸ same⟩
  · simp [hg] at hf

end Advances

variable (l : Loop)

theorem advances_changeTask {t : TaskId} {f : Task → Task}
    (h : ∀ x, l.tasks[t]? = some x → x.Keeps (f x) ∧ ∀ g, x.phase = .gathering g →
      ∃ g', (f x).phase = .gathering g' ∧ g.Same g') : l.Advances (l.changeTask t f) := by
  refine ⟨l.keeps_changeTask fun x hx => (h x hx).1, fun u x g hx hg => ?_, [], by simp [changeTask]⟩
  rw [getElem?_changeTask, hx]
  by_cases htu : t = u
  · subst htu
    obtain ⟨g', hg', same⟩ := (h x hx).2 g hg
    exact ⟨f x, g', by simp, hg', same⟩
  · exact ⟨x, g, by simp [htu], hg, .refl g⟩

theorem advances_flags {t : TaskId} {f : Task → Task} (job : ∀ x, (f x).job = x.job)
    (phase : ∀ x, (f x).phase = x.phase)
    (cancelling : ∀ x, x.cancelling = true → (f x).cancelling = true) :
    l.Advances (l.changeTask t f) :=
  l.advances_changeTask fun x _ =>
    ⟨⟨job x, .inl (phase x), cancelling x⟩, fun g hg => ⟨g, (phase x).trans hg, .refl g⟩⟩

theorem advances_leavePending (t : TaskId) : l.Advances (l.leavePending t) :=
  l.advances_flags (fun _ => rfl) (fun _ => rfl) fun _ _ => rfl

theorem advances_markCancelling (t : TaskId) : l.Advances (l.markCancelling t) :=
  l.advances_flags (fun _ => rfl) (fun _ => rfl) fun _ _ => rfl

theorem advances_passCancellation (t : TaskId) : l.Advances (l.passCancellation t) :=
  l.advances_flags (fun _ => rfl) (fun _ => rfl) fun _ => id

theorem advances_settle (r : RequestId) (e : Settlement) : l.Advances (l.settle r e) := by
  unfold settle
  split
  · next request _ =>
    split
    · exact .of_tasks_eq rfl [request.awaitedBy] rfl
    · exact .refl l
  · exact .refl l

theorem advances_cancelMember (t : TaskId) : l.Advances (l.cancelMember t) := by
  unfold cancelMember
  split
  · exact .refl l
  · split
    · split
      · exact (l.advances_markCancelling t).trans (advances_settle _ _ _)
      · exact l.advances_leavePending t
    · exact l.advances_leavePending t

theorem advances_cancelMembers (members : List TaskId) : l.Advances (l.cancelMembers members) := by
  unfold cancelMembers
  induction members generalizing l with
  | nil => exact .refl l
  | cons t members ih => exact (l.advances_cancelMember t).trans (ih _)

theorem advances_cancel (t : TaskId) : l.Advances (l.cancel t) := by
  unfold cancel
  split
  · rename_i g hg
    split
    · have members := l.advances_cancelMembers g.members
      obtain ⟨x, hx, hp⟩ := Option.map_eq_some_iff.mp hg
      obtain ⟨y, g', hy, hg', same⟩ := members.rounds t x g hx hp
      refine members.trans (.trans (advances_changeTask _ fun z hz => ?_) (advances_markCancelling _ t))
      rw [hy, Option.some.injEq] at hz
      subst hz
      refine ⟨⟨rfl, .inr ⟨g', _, hg', rfl⟩, id⟩, fun g'' hg'' => ?_⟩
      rw [hg', Phase.gathering.injEq] at hg''
      subst hg''
      exact ⟨_, rfl, same.members.symm, same.ended.symm, same.outcome.symm⟩
    · exact l.advances_leavePending t
  · exact l.advances_cancelMember t

theorem advances_wake (t : TaskId) : (l.setPhase t .running).Advances (l.wake t) := by
  have pass := advances_passCancellation (l.setPhase t .running) t
  rwa [passCancellation, setPhase, changeTask_changeTask] at pass

theorem advances_pause (t : TaskId) (next : Except Failure Unit → Reply) :
    (l.setPhase t (.paused next)).Advances (l.pause t next) := .of_tasks_eq rfl [t] rfl

theorem advances_await (t : TaskId) (r : RequestId) (next : Except Failure Value → Reply) :
    (l.setPhase t (.awaiting r next)).Advances (l.await t r next) := by
  unfold await
  dsimp only
  split
  · exact (advances_passCancellation _ t).trans (advances_settle _ _ _)
  · exact .refl _

theorem advances_spawn (name : Option String) (c : EditContext) :
    l.Advances (l.spawn name (.lint c)) := by
  refine ⟨l.keeps_spawn name c, fun t x g hx hg => ⟨x, g, ?_, hg, .refl g⟩, [l.tasks.size], rfl⟩
  have ht : t < l.tasks.size := (Array.getElem?_eq_some_iff.mp hx).1
  simp [spawn, Array.getElem?_push, Nat.ne_of_lt ht, hx]

theorem advances_openRequest (p : ProviderId) (t : TaskId) : l.Advances (l.openRequest p t) :=
  .of_tasks_eq rfl [] (by simp [openRequest])

end Loop

namespace Entry

/-- The dispatch that an entry speaks for: it was opened, a notice of it was emitted, or a listener
heard one. -/
def speaker? : Entry → Option Dispatch
  | .dispatched d | .emitted d _ | .heard d .. => some d
  | _ => none

/-- What an entry tells of the bus. -/
def onBus (b : Bus) : Entry → Bus
  | .subscribed s => b.subscribe s
  | .unsubscribed s => b.unsubscribe s
  | .disposed => b.dispose
  | _ => b

/-- Whether an entry tells of a subscription of the listener, or of the end of all. -/
def Concerns (l : ListenerId) : Entry → Prop
  | .subscribed s | .unsubscribed s => s.listener = l
  | .disposed => True
  | _ => False

variable {e : Entry}

theorem speaker?_of_isQuiet (h : e.isQuiet = true) : e.speaker? = none := by
  cases e <;> first | rfl | cases h

theorem onBus_of_isQuiet (h : e.isQuiet = true) (b : Bus) : e.onBus b = b := by
  cases e <;> first | rfl | cases h

end Entry

/-- What becomes of a bus along a stretch of the journal. -/
def Bus.replay (b : Bus) (K : List Entry) : Bus := K.foldl Entry.onBus b

/-- The bus is in use, and the listener listens once to each kind of notice. -/
structure Bus.Attended (b : Bus) (l : ListenerId) : Prop where
  usable : b.disposed = false
  once : ∀ kind, (b.listeners kind).count l = 1

theorem Bus.Attended.onBus {b : Bus} {l : ListenerId} (h : b.Attended l) {e : Entry}
    (he : ¬ e.Concerns l) : (e.onBus b).Attended l := by
  cases e with
  | subscribed s =>
    refine ⟨h.usable, fun kind => ?_⟩
    have other : s.listener ≠ l := he
    have one := h.once kind
    show ((b.subscribe s).listeners kind).count l = 1
    unfold Bus.subscribe
    rw [Bus.listeners_withListeners]
    split
    · next hk => rw [List.count_append, ← hk, one]; simp [other]
    · exact one
  | unsubscribed s =>
    refine ⟨h.usable, fun kind => ?_⟩
    have other : s.listener ≠ l := he
    have one := h.once kind
    show ((b.unsubscribe s).listeners kind).count l = 1
    unfold Bus.unsubscribe
    rw [Bus.listeners_withListeners]
    split
    · next hk => rw [← hk, List.count_erase_of_ne other.symm, one]
    · exact one
  | disposed => exact absurd trivial he
  | _ => exact h

theorem Bus.Attended.replay {b : Bus} {l : ListenerId} {K : List Entry} (h : b.Attended l)
    (hK : ∀ e ∈ K, ¬ e.Concerns l) : (b.replay K).Attended l := by
  induction K generalizing b with
  | nil => exact h
  | cons e K ih =>
    exact ih (h.onBus (hK e List.mem_cons_self)) fun e' he => hK e' (List.mem_cons_of_mem _ he)

namespace Session
variable {s s' s'' : Session} {K K' : List Entry}

/-- The journal grew by these entries in a stretch from one session to the other. -/
structure Stretch (s s' : Session) (K : List Entry) : Prop where
  history : s'.history = s.history ++ K
  bus : s'.registry.bus = s.registry.bus.replay K
  loop : s.loop.Advances s'.loop

namespace Stretch

theorem refl (s : Session) : s.Stretch s [] := ⟨by simp, rfl, .refl _⟩

theorem trans (h : s.Stretch s' K) (h' : s'.Stretch s'' K') : s.Stretch s'' (K ++ K') where
  history := by rw [h'.history, h.history, List.append_assoc]
  bus := by rw [h'.bus, h.bus, Bus.replay, Bus.replay, Bus.replay, List.foldl_append]
  loop := h.loop.trans h'.loop

/-- A stretch can be read off the journal. -/
theorem unique (h : s.Stretch s' K) (h' : s'.history = s.history ++ K') : K = K' :=
  List.append_cancel_left (h.history.symm.trans h')

theorem of_entry {e : Entry} (history : s'.history = s.history ++ [e])
    (bus : s'.registry.bus = e.onBus s.registry.bus) (loop : s'.loop = s.loop) :
    s.Stretch s' [e] := ⟨history, bus, loop ▸ .refl _⟩

theorem of_nothing (history : s'.history = s.history) (bus : s'.registry.bus = s.registry.bus)
    (loop : s.loop.Advances s'.loop) : s.Stretch s' [] := ⟨by simp [history], bus, loop⟩

theorem noted {e : Entry} (h : ∀ b : Bus, e.onBus b = b) (s : Session) : s.Stretch (s.noted e) [e] :=
  .of_entry (history_noted s e) (h _).symm rfl

end Stretch

/-- All that was written is of this kind. -/
def Writes (Q : Entry → Prop) (s s' : Session) : Prop := ∃ K, s.Stretch s' K ∧ ∀ e ∈ K, Q e

instance (Q : Entry → Prop) : IsPreorder Session (Writes Q) where
  refl s := ⟨[], .refl s, by simp⟩
  trans := by
    rintro s s' s'' ⟨K, h, hK⟩ ⟨K', h', hK'⟩
    refine ⟨K ++ K', h.trans h', fun e he => ?_⟩
    rcases List.mem_append.mp he with he | he
    · exact hK e he
    · exact hK' e he

abbrev Silent : Session → Session → Prop := Writes fun e => e.speaker? = none

theorem silent_noted {e : Entry} (h : e.speaker? = none) (hb : ∀ b : Bus, e.onBus b = b)
    (s : Session) : Silent s (s.noted e) := ⟨[e], .noted hb s, by simpa using h⟩

theorem silent_of_entry {e : Entry} (history : s'.history = s.history ++ [e])
    (speaker : e.speaker? = none) (bus : s'.registry.bus = e.onBus s.registry.bus)
    (loop : s'.loop = s.loop) : Silent s s' := ⟨[e], .of_entry history bus loop, by simpa using speaker⟩

theorem silent_of_nothing (history : s'.history = s.history)
    (bus : s'.registry.bus = s.registry.bus) (loop : s.loop.Advances s'.loop) : Silent s s' :=
  ⟨[], .of_nothing history bus loop, by simp⟩

theorem Quiet.silent (h : Quiet s s') : Silent s s' := by
  obtain ⟨settings, ⟨es⟩, hq, rfl⟩ := h
  refine ⟨es, ⟨by simp [Session.history], ?_, .refl _⟩, fun e he => ?_⟩
  · have quiet : ∀ e ∈ es, e.isQuiet = true := fun e he => hq e (by simpa using he)
    show s.registry.bus = s.registry.bus.replay es
    clear hq
    generalize s.registry.bus = b
    induction es generalizing b with
    | nil => rfl
    | cons e es ih =>
      have first := Entry.onBus_of_isQuiet (quiet e List.mem_cons_self) b
      have rest := ih (fun e' he => quiet e' (List.mem_cons_of_mem _ he)) b
      rw [Bus.replay, List.foldl_cons, first]
      exact rest
  · exact Entry.speaker?_of_isQuiet (hq e (by simpa using he))

/-- What an action comes down to: changes, in a silent stretch. -/
structure Deeds (s s' : Session) : Prop where
  changes : Changes s s'
  silent : Silent s s'

instance : IsPreorder Session Deeds where
  refl s := ⟨.refl, refl s⟩
  trans _ _ _ h h' := ⟨h.changes.trans h'.changes, IsTrans.trans _ _ _ h.silent h'.silent⟩

theorem Quiet.deeds (h : Quiet s s') : Deeds s s' := ⟨h.changes, h.silent⟩

end Session
end LintBroker

import LintBroker.Proofs.Habits
import LintBroker.Proofs.Speech

/-!
# A disposed bus is silent

When the registry is disposed while a notice is being delivered, that delivery still goes on to those
it started for. But no emission that starts afterwards calls anyone, whoever subscribes, and once one
has started nobody is called any more at all.
-/
namespace LintBroker

def Entry.isCall : Entry → Bool
  | .delivered .. | .heard .. => true
  | _ => false

theorem Entry.isCall_of_isQuiet {e : Entry} (h : e.isQuiet = true) : e.isCall = false := by
  cases e <;> first | rfl | cases h

theorem Entry.isCall_of_isOwn {e : Entry} (h : e.isOwn = true) : e.isCall = false := by
  cases e <;> first | rfl | cases h

/-- Nobody is called in this stretch. -/
def Uncalled (K : List Entry) : Prop := ∀ e ∈ K, e.isCall = false

/-- In this stretch nobody is called after an emission has started. -/
def Hushed (K : List Entry) : Prop :=
  ∀ (A : List Entry) (d : Dispatch) (n : Notice) (B : List Entry),
    K = A ++ .emitted d n :: B → Uncalled B

theorem Uncalled.append {K K' : List Entry} (h : Uncalled K) (h' : Uncalled K') :
    Uncalled (K ++ K') := fun e he => (List.mem_append.mp he).elim (h e) (h' e)

theorem Uncalled.hushed {K : List Entry} (h : Uncalled K) : Hushed K := by
  rintro A d n B rfl e he
  exact h e (List.mem_append_right _ (List.mem_cons_of_mem _ he))

theorem hushed_of_no_emission {K : List Entry} (h : ∀ d n, .emitted d n ∉ K) : Hushed K := by
  rintro A d n B rfl
  exact absurd (List.mem_append_right _ List.mem_cons_self) (h d n)

/-- A hushed stretch stays so when nobody is called in what follows. -/
theorem Hushed.append {K K' : List Entry} (h : Hushed K) (h' : Uncalled K') : Hushed (K ++ K') := by
  intro A d n B hAB
  rcases List.append_eq_append_iff.mp hAB with ⟨C, rfl, hC⟩ | ⟨C, rfl, hC⟩
  · intro e he
    exact h' e (hC ▸ List.mem_append_right _ (List.mem_cons_of_mem _ he))
  · cases C with
    | nil =>
      intro e he
      have hK' : K' = .emitted d n :: B := hC.symm
      exact h' e (hK' ▸ List.mem_cons_of_mem _ he)
    | cons e C =>
      obtain ⟨rfl, rfl⟩ := List.cons.inj hC
      exact (h A d n C rfl).append h'

theorem Bus.disposed_onBus {b : Bus} {e : Entry} (h : b.disposed = true ∨ e = .disposed) :
    (e.onBus b).disposed = true := by
  rcases h with h | rfl
  · cases e <;> first | exact h | rfl
  · rfl

/-- A bus that was disposed, or that is disposed in a stretch, is disposed after it. -/
theorem Bus.disposed_replay {b : Bus} {K : List Entry} (h : b.disposed = true ∨ .disposed ∈ K) :
    (b.replay K).disposed = true := by
  induction K generalizing b with
  | nil => exact h.resolve_right List.not_mem_nil
  | cons e K ih =>
    refine ih ?_
    rcases h with h | h
    · exact .inl (disposed_onBus (.inl h))
    · exact (List.mem_cons.mp h).imp (fun he => disposed_onBus (.inr he.symm)) id

/-- A stretch that falls silent with the bus: on a disposed bus nobody is called, and after the bus is
disposed no emission that starts calls anyone. -/
structure Bus.FallsSilent (b : Bus) (K : List Entry) : Prop where
  uncalled : b.disposed = true → Uncalled K
  after : ∀ A B : List Entry, K = A ++ .disposed :: B → Hushed B

theorem Uncalled.fallsSilent {K : List Entry} (h : Uncalled K) (b : Bus) : b.FallsSilent K := by
  refine ⟨fun _ => h, ?_⟩
  rintro A B rfl
  exact Uncalled.hushed fun e he => h e (List.mem_append_right _ (List.mem_cons_of_mem _ he))

theorem Bus.FallsSilent.append {b : Bus} {K K' : List Entry} (h : b.FallsSilent K)
    (h' : (b.replay K).FallsSilent K') : b.FallsSilent (K ++ K') := by
  refine ⟨fun gone => (h.uncalled gone).append (h'.uncalled (disposed_replay (.inl gone))), ?_⟩
  intro A B hAB
  rcases List.append_eq_append_iff.mp hAB with ⟨C, rfl, hC⟩ | ⟨C, rfl, hC⟩
  · exact h'.after C B hC
  · cases C with
    | nil => exact h'.after [] B hC.symm
    | cons e C =>
      obtain ⟨rfl, rfl⟩ := List.cons.inj hC
      have gone : (b.replay (A ++ .disposed :: C)).disposed = true :=
        disposed_replay (.inr (List.mem_append_right _ List.mem_cons_self))
      exact (h.after A C rfl).append (h'.uncalled gone)

namespace Session
variable {s s' : Session}

/-- What was written tells all that became of the bus, and it falls silent with it. -/
def FallsSilent (s s' : Session) : Prop :=
  ∃ K, s'.history = s.history ++ K ∧ s'.registry.bus = s.registry.bus.replay K ∧
    s.registry.bus.FallsSilent K

instance : IsPreorder Session FallsSilent where
  refl s := ⟨[], by simp, rfl, Uncalled.fallsSilent (by simp [Uncalled]) _⟩
  trans := by
    rintro s s' s'' ⟨K, history, bus, silent⟩ ⟨K', history', bus', silent'⟩
    refine ⟨K ++ K', by rw [history', history, List.append_assoc], ?_, silent.append (bus ▸ silent')⟩
    rw [bus', bus, Bus.replay, Bus.replay, Bus.replay, List.foldl_append]

theorem fallsSilent_of_entry {e : Entry} (history : s'.history = s.history ++ [e])
    (uncalled : e.isCall = false) (bus : s'.registry.bus = e.onBus s.registry.bus) :
    s.FallsSilent s' := ⟨[e], history, bus, Uncalled.fallsSilent (by simpa [Uncalled]) _⟩

theorem fallsSilent_of_nothing (history : s'.history = s.history)
    (bus : s'.registry.bus = s.registry.bus) : s.FallsSilent s' :=
  ⟨[], by simp [history], bus, Uncalled.fallsSilent (by simp [Uncalled]) _⟩

theorem Stroke.fallsSilent (h : Stroke s s') : s.FallsSilent s' := by
  cases h with
  | quiet h =>
    obtain ⟨K, stretch, _⟩ := h.silent
    obtain ⟨settings, ⟨es⟩, hq, rfl⟩ := h
    have same : K = es := stretch.unique (by simp [Session.history])
    refine ⟨K, stretch.history, stretch.bus, Uncalled.fallsSilent (fun e he => ?_) _⟩
    exact Entry.isCall_of_isQuiet (hq e (by simpa [same] using he))
  | reshape | alter | subscribe | unsubscribe | register | dispose =>
    exact fallsSilent_of_entry (history_noted _ _) rfl rfl
  | @remove p id h =>
    exact fallsSilent_of_entry (history_noted _ _) rfl (Registry.bus_remove _ p)
  | _ => exact fallsSilent_of_nothing rfl rfl

theorem fallsSilent_emit (handling : Option Failure) (d : Dispatch) (n : Notice) :
    KeepsTo FallsSilent (Act.emit handling d n).run := by
  intro s
  change FallsSilent s ((Act.emit handling d n).exec s).2
  let emitted := s.noted (.emitted d n)
  cases gone : s.registry.bus.disposed with
  | true =>
    have nobody : s.registry.bus.audience n.kind = [] := by simp [Bus.audience, gone]
    have same : ((Act.emit handling d n).exec s).2 = emitted := by
      show ((deliverAll (Act.call handling d) (Act.reportListener n.kind)
        (s.registry.bus.audience n.kind) n).run emitted).2 = emitted
      rw [nobody]
      rfl
    rw [same]
    exact fallsSilent_of_entry (history_noted _ _) rfl rfl
  | false =>
    obtain ⟨K, account, said, _⟩ := Act.account_deliverAll handling d n.kind
      (s.registry.bus.audience n.kind) n emitted
    refine ⟨.emitted d n :: K, ?_, account.bus, fun h => by simp [gone] at h, ?_⟩
    · show _ = s.history ++ ([.emitted d n] ++ K)
      rw [← List.append_assoc]
      exact account.history.trans (by rw [history_noted])
    · intro A B hAB
      refine hushed_of_no_emission fun d' n' hm => ?_
      cases A with
      | nil => cases hAB
      | cons e A =>
        have hK : K = A ++ .disposed :: B := (List.cons.inj hAB).2
        have : (d', n'.bare) ∈ LintBroker.said K := by
          rw [hK]
          exact List.mem_filterMap.mpr
            ⟨_, List.mem_append_right _ (List.mem_cons_of_mem _ hm), rfl⟩
        rw [said] at this
        cases this

instance : Lasting FallsSilent where
  stroke h := h.fallsSilent
  own h _ := by
    rename_i e s
    exact fallsSilent_of_entry (history_noted _ _) (Entry.isCall_of_isOwn h)
      (by cases e <;> first | rfl | cases h)
  answered _ _ _ := fallsSilent_of_entry (history_noted _ _) rfl rfl
  invoked _ _ _ := fallsSilent_of_entry (history_noted _ _) rfl rfl
  counts _ _ _ := fallsSilent_of_nothing rfl rfl
  calls _ _ := fallsSilent_of_nothing rfl rfl
  work _ := fallsSilent_of_nothing rfl rfl
  emit := fallsSilent_emit
  pop _ := fallsSilent_of_nothing rfl rfl
  hear _ _ _ := fallsSilent_of_nothing rfl rfl

/-- After the registry is disposed no emission that starts calls anyone. -/
theorem hushed_of_disposed (s : Session) (moves : List Move) {J₁ J₂ : List Entry}
    (hJ : (s.opening.run moves).history = J₁ ++ .disposed :: J₂) : Hushed J₂ := by
  obtain ⟨K, history, _, silent⟩ := lasting_run (R := FallsSilent) s.opening moves
  refine silent.after J₁ J₂ ?_
  rw [← hJ, history]
  rfl

end Session
end LintBroker

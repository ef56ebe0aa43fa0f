import LintBroker.Proofs.Completion
import LintBroker.Proofs.Dealing
import LintBroker.Proofs.Hearing

/-!
# The order of answers

What comes of answers that are dealt with one after the other depends, for each provider, on the
answers of its own dispatches alone and on the order in which these come. So two orders that agree
provider by provider leave all registrations the same, and every provider has the same notices.

And what comes of a stretch of a run is what comes of the answers that are given in it, as long as
nobody does anything else that matters.
-/
namespace LintBroker
open Dispatch

/-- Answers that were given, each with the dispatch that it was given to. -/
abbrev AnswersGiven := List (Dispatch × Except Failure Value)

namespace Session
variable {s : Session} {p : ProviderId} {x y : Record Nat} {id : RecordId}
  {records records' : Array (Record Nat)} {A A' : AnswersGiven}

/-- Whether the task of a dispatch has been asked to end. -/
def asks (s : Session) (d : Dispatch) : Bool :=
  s.loop.tasks.any fun x => x.cancelling && match x.job with
    | .dispatch d' => decide (d'.key = d.key)
    | .lint _ => false

theorem asks_iff {d : Dispatch} : s.asks d = true ↔ ∃ (t : TaskId) (x : Task) (d' : Dispatch),
    s.loop.tasks[t]? = some x ∧ x.job = .dispatch d' ∧ d'.key = d.key ∧ x.cancelling = true := by
  rw [asks, Array.any_eq_true]
  constructor
  · rintro ⟨t, ht, h⟩
    obtain ⟨cancelling, same⟩ := Bool.and_eq_true_iff.mp h
    split at same
    · rename_i d' hd
      exact ⟨t, _, d', Array.getElem?_eq_getElem ht, hd, of_decide_eq_true same, cancelling⟩
    · cases same
  · rintro ⟨t, x, d', hx, hd, hk, cancelling⟩
    obtain ⟨ht, rfl⟩ := Array.getElem?_eq_some_iff.mp hx
    exact ⟨t, ht, by rw [cancelling, hd, Bool.true_and]; exact decide_eq_true hk⟩

/-- The registrations after answers have been dealt with one after the other, and the notices that
were emitted. All is read as in the session, and each answer finds the registrations as those before
it left them. -/
def dealAll (s : Session) (records : Array (Record Nat)) :
    AnswersGiven → Array (Record Nat) × List (Dispatch × Notice)
  | [] => (records, [])
  | (d, r) :: rest =>
    match records[d.record]? with
    | none => s.dealAll records rest
    | some x =>
      let later := s.dealAll (records.modify d.record fun _ => s.received (s.asks d) d r x) rest
      (later.1, (s.noticesUpon (s.asks d) d r x).map (d, ·) ++ later.2)

section dealAll
variable {d : Dispatch} {r : Except Failure Value}

theorem dealAll_cons_none (hx : records[d.record]? = none) :
    s.dealAll records ((d, r) :: A) = s.dealAll records A := by
  rw [dealAll, hx]

theorem dealAll_cons_some (hx : records[d.record]? = some x) :
    s.dealAll records ((d, r) :: A) =
      let later := s.dealAll (records.modify d.record fun _ => s.received (s.asks d) d r x) A
      (later.1, (s.noticesUpon (s.asks d) d r x).map (d, ·) ++ later.2) := by
  rw [dealAll, hx]

/-- What comes of more answers is what comes of those that are dealt with first, and then of the
others. -/
theorem dealAll_append (s : Session) (records : Array (Record Nat)) (A A' : AnswersGiven) :
    s.dealAll records (A ++ A') =
      ((s.dealAll (s.dealAll records A).1 A').1,
        (s.dealAll records A).2 ++ (s.dealAll (s.dealAll records A).1 A').2) := by
  induction A generalizing records with
  | nil => simp [dealAll]
  | cons a A ih =>
    obtain ⟨d, r⟩ := a
    cases hx : records[d.record]? with
    | none =>
      rw [List.cons_append, dealAll_cons_none hx, dealAll_cons_none hx]
      exact ih records
    | some x =>
      rw [List.cons_append, dealAll_cons_some hx, dealAll_cons_some hx]
      simp only [ih, List.append_assoc]

end dealAll

/-! ### One provider among others -/

/-- The registrations of the provider are the same. -/
def SameFor (p : ProviderId) (records records' : Array (Record Nat)) : Prop :=
  ∀ (id : RecordId) (x : Record Nat), x.provider = p →
    (records[id]? = some x ↔ records'[id]? = some x)

namespace SameFor

theorem refl (p : ProviderId) (records : Array (Record Nat)) : SameFor p records records :=
  fun _ _ _ => .rfl

theorem modify_left (h : SameFor p records records') (hx : records[id]? = some x)
    (other : x.provider ≠ p) (same : y.provider = x.provider) :
    SameFor p (records.modify id fun _ => y) records' := by
  intro i z hz
  rw [← h i z hz, Array.getElem?_modify]
  split
  · subst i
    rw [hx]
    constructor
    · intro hy
      obtain rfl := Option.some.inj hy
      exact absurd (same.symm.trans hz) other
    · intro hy
      obtain rfl := Option.some.inj hy
      exact absurd hz other
  · rfl

/-- A registration is changed in both. -/
theorem modify (h : SameFor p records records') (hx : records[id]? = some x) (own : x.provider = p) :
    SameFor p (records.modify id fun _ => y) (records'.modify id fun _ => y) := by
  intro i z hz
  rw [Array.getElem?_modify, Array.getElem?_modify]
  split
  · subst i
    rw [hx, (h id x own).mp hx]
  · exact h i z hz

end SameFor

/-- If they are the same for every provider, then they are the same. -/
theorem eq_of_sameFor (h : ∀ p, SameFor p records records') : records = records' := by
  refine Array.ext_getElem? fun i => ?_
  cases hx : records[i]? with
  | some x => exact ((h x.provider i x rfl).mp hx).symm
  | none =>
    cases hy : records'[i]? with
    | none => rfl
    | some y =>
      rw [(h y.provider i y rfl).mpr hy] at hx
      cases hx

def answersOf (s : Session) (p : ProviderId) (A : AnswersGiven) : AnswersGiven :=
  A.filter fun a => decide (s.providerOf a.1.record = some p)

def noticesAbout (p : ProviderId) (N : List (Dispatch × Notice)) : List (Dispatch × Notice) :=
  N.filter fun a => decide (a.2.provider = p)

@[simp] theorem provider_received (asked : Bool) (d : Dispatch) (r : Except Failure Value) :
    (s.received asked d r x).provider = x.provider := by
  unfold received
  split <;> rfl

theorem provider_of_mem_noticesUpon {asked : Bool} {d : Dispatch} {r : Except Failure Value}
    {n : Notice} (h : n ∈ s.noticesUpon asked d r x) : n.provider = x.provider := by
  rcases List.mem_append.mp h with update | finish
  · rw [Option.mem_toList] at update
    split at update
    · unfold updateFor updateOf at update
      split at update
      · split at update
        · cases update
        · split at update
          · cases update
          · split at update
            · rw [← Option.some.inj update]
              rfl
            · cases update
      · cases update
    · cases update
  · rw [Option.mem_toList, finishFor] at finish
    split at finish
    · cases finish
    · rw [← Option.some.inj finish]
      rfl

/-- For a provider nothing but the answers of its own dispatches matters. -/
theorem dealAll_answersOf (known : ∀ id, records[id]?.map Record.provider = s.providerOf id)
    (same : SameFor p records records') :
    SameFor p (s.dealAll records A).1 (s.dealAll records' (s.answersOf p A)).1 ∧
      noticesAbout p (s.dealAll records A).2 =
        noticesAbout p (s.dealAll records' (s.answersOf p A)).2 := by
  induction A generalizing records records' with
  | nil => exact ⟨same, rfl⟩
  | cons a A ih =>
    obtain ⟨d, r⟩ := a
    have provider := known d.record
    cases hx : records[d.record]? with
    | none =>
      rw [hx] at provider
      have foreign : s.answersOf p ((d, r) :: A) = s.answersOf p A :=
        List.filter_cons_of_neg (by simp [← provider])
      rw [dealAll_cons_none hx, foreign]
      exact ih known same
    | some x =>
      rw [hx] at provider
      let y := s.received (s.asks d) d r x
      have known' (id : RecordId) :
          (records.modify d.record fun _ => y)[id]?.map Record.provider = s.providerOf id := by
        rw [Array.getElem?_modify]
        split
        · subst id
          rw [← provider, hx]
          simp [y]
        · exact known id
      rw [dealAll_cons_some hx]
      by_cases own : x.provider = p
      · have kept : s.answersOf p ((d, r) :: A) = (d, r) :: s.answersOf p A :=
          List.filter_cons_of_pos (by simp [← provider, own])
        obtain ⟨registrations, notices⟩ := ih known' (same.modify hx own)
        rw [kept, dealAll_cons_some ((same d.record x own).mp hx)]
        refine ⟨registrations, ?_⟩
        simp only [noticesAbout, List.filter_append]
        exact congrArg _ notices
      · have foreign : s.answersOf p ((d, r) :: A) = s.answersOf p A :=
          List.filter_cons_of_neg (by simp [← provider, own])
        obtain ⟨registrations, notices⟩ := ih known' (same.modify_left hx own (provider_received ..))
        rw [foreign]
        refine ⟨registrations, ?_⟩
        have none : noticesAbout p ((s.noticesUpon (s.asks d) d r x).map (d, ·)) = [] := by
          refine List.filter_eq_nil_iff.mpr fun a ha => ?_
          obtain ⟨n, hn, rfl⟩ := List.mem_map.mp ha
          simp [provider_of_mem_noticesUpon hn, own]
        simp only [noticesAbout, List.filter_append] at none ⊢
        rw [none]
        exact notices

/-- Answers that come in the same order for every provider leave all registrations the same, and
every provider has the same notices. -/
theorem dealAll_comm (same : ∀ p, s.answersOf p A = s.answersOf p A') :
    let out := s.dealAll s.registry.records A
    let out' := s.dealAll s.registry.records A'
    out.1 = out'.1 ∧ ∀ p, noticesAbout p out.2 = noticesAbout p out'.2 := by
  intro out out'
  have own (p : ProviderId) (A : AnswersGiven) :=
    dealAll_answersOf (s := s) (A := A) (fun _ => rfl) (.refl p s.registry.records)
  refine ⟨eq_of_sameFor fun p id x hx => ?_, fun p => ?_⟩
  · rw [(own p A).1 id x hx, same, (own p A').1 id x hx]
  · rw [(own p A).2, same, (own p A').2]

end Session

/-! ### Stretches in which only answers matter -/

/-- Whether what is written changes a registration. -/
def Entry.changesRecords : Entry → Bool
  | .registered .. | .removed .. | .disposed | .dispatched _ | .accepted .. => true
  | _ => false

namespace Session
open Act
variable {s last u v w : Session} {t : TaskId} {d : Dispatch} {p : ProviderId} {x : Task}
  {r : Except Failure Value} {K : List Entry}

/-- A step leaves all registrations alone, or the journal says that it does not. -/
theorem Step.records (h : u.Step v) : v.registry.records = u.registry.records ∨
    ∃ e, v.history = u.history ++ [e] ∧ e.changesRecords = true := by
  cases h with
  | change h =>
    cases h with
    | register | remove | dispose => exact .inr ⟨_, history_noted _ _, rfl⟩
    | _ => exact .inl rfl
  | opens | accepts => exact .inr ⟨_, history_noted _ _, rfl⟩
  | _ => exact .inl rfl

theorem Path.records (h : u.Path v) (hK : v.history = u.history ++ K)
    (still : ∀ e ∈ K, e.changesRecords = false) : v.registry.records = u.registry.records := by
  induction h generalizing K with
  | refl => rfl
  | @tail v w path step ih =>
    obtain ⟨K₁, hv⟩ := Path.history_prefix path
    obtain ⟨K₂, hw⟩ := Path.history_prefix (.single step)
    obtain rfl : K₁ ++ K₂ = K := by
      rw [hw, hv, List.append_assoc] at hK
      exact List.append_cancel_left hK
    rcases step.records with same | ⟨e, he, changes⟩
    · exact same.trans (ih hv fun e he => still e (List.mem_append_left _ he))
    · obtain rfl := List.append_cancel_left (he.symm.trans hw)
      rw [still e (List.mem_append_right _ (List.mem_singleton_self e))] at changes
      cases changes

/-- What happens while a task runs says nothing of any dispatch, unless it opens one. -/
theorem Meanwhile.unmarked (h : u.Meanwhile v) (c : u.Coherent) (hK : v.history = u.history ++ K)
    (unopened : ∀ d, .dispatched d ∉ K) : ∀ e ∈ K, e.mark? = none := by
  intro e he
  by_contra marked
  obtain ⟨⟨d, m⟩, hm⟩ := Option.ne_none_iff_exists'.mp marked
  have known : .dispatched d ∈ v.history :=
    (c.path h.path).known (hK ▸ List.mem_append_right _ he) hm
  rw [hK] at known
  have before : .dispatched d ∈ u.history :=
    (List.mem_append.mp known).resolve_right (unopened d)
  obtain ⟨y, hy⟩ := c.stage d.key
  have after : v.Stands d.key y := by
    refine h.stands hy ?_
    rintro rfl
    have opened : Mark.opened ∈ life d.key u.history := mem_life before rfl
    rw [hy] at opened
    cases opened
  have none : life d.key K = [] := by
    have same : life d.key u.history ++ life d.key K = life d.key u.history := by
      rw [← life_append, ← hK, hy, after]
    exact List.append_right_eq_self.mp same
  have some : m ∈ life d.key K := mem_life he hm
  rw [none] at some
  cases some

/-- From the one moment to the other no registration is made or changed by anybody, no dispatch is
opened, no surface is destroyed, all names and scopes stay as they are, and nobody is asked to end. -/
structure Steady (s last : Session) : Prop where
  registered : ∀ id p, .registered id p ∉ last.since s
  removed : ∀ id p, .removed id p ∉ last.since s
  disposed : .disposed ∉ last.since s
  dispatched : ∀ d, .dispatched d ∉ last.since s
  reshaped : ∀ p a, .reshaped p a ∈ last.since s → a.name = s.nameOf p ∧ a.scope = s.scopeOf p
  destroyed : ∀ id v, .altered id .destroyed v ∉ last.since s
  unasked : ∀ t, last.IsCancelling t → s.IsCancelling t

theorem mem_since (before : s.Path u) (hK : v.history = u.history ++ K) (after : v.Path last)
    {e : Entry} (he : e ∈ K) : e ∈ last.since s := by
  obtain ⟨J, hJ⟩ := before.history_prefix
  obtain ⟨J', hJ'⟩ := after.history_prefix
  rw [since, hJ', hK, hJ, List.append_assoc, List.append_assoc, List.drop_left]
  exact List.mem_append_right _ (List.mem_append_left _ he)

/-- A moment between the two, at which the listeners are still those of the host. -/
structure Amid (s last u : Session) : Prop where
  coherent : u.Coherent
  before : s.Path u
  after : u.Path last
  equips : s.Equips u
  asked : u.loop.Asked

namespace Amid

theorem next (h : Amid s last u) (path : u.Path v) (rest : v.Path last) (equips : u.Equips v)
    (asked : u.KeepsAsked v) : Amid s last v :=
  ⟨h.coherent.path path, h.before.trans path, rest, IsTrans.trans _ _ _ h.equips equips,
    asked h.asked⟩

variable (h : Amid s last u) (steady : s.Steady last)
include h steady

/-- All that matters can be read as before. -/
theorem readsAlike : s.ReadsAlike u := by
  obtain ⟨K, hK⟩ := h.before.history_prefix
  have within {e : Entry} (he : e ∈ K) : e ∈ last.since s := mem_since .refl hK h.after he
  refine ⟨fun p => ?_, fun p => ?_, fun id => ?_⟩
  · exact h.before.attributesOf hK (P := fun a => (a >>= Attributes.name) = s.nameOf p) rfl
      fun a ha => (steady.reshaped p a (within ha)).1
  · exact h.before.attributesOf hK (P := fun a => (a >>= Attributes.scope) = s.scopeOf p) rfl
      fun a ha => (steady.reshaped p a (within ha)).2
  · exact h.before.answerOf hK (P := (· = s.answerOf id .destroyed)) rfl
      fun v hv => absurd (within hv) (steady.destroyed id v)

theorem cancelling_eq (runs : u.Runs t (.dispatch d)) :
    ((u.loop.tasks[t]?).map Task.cancelling).getD false = s.asks d := by
  obtain ⟨x, hx, _, hd⟩ := runs
  rw [hx, Option.map_some, Option.getD_some, Bool.eq_iff_iff, asks_iff]
  constructor
  · intro cancelling
    obtain ⟨z, hz, _, asked⟩ := h.after.task hx
    obtain ⟨y, hy, before⟩ := steady.unasked t ⟨z, hz, asked cancelling⟩
    obtain ⟨x', hx', job, _⟩ := h.before.task hy
    obtain rfl := Option.some.inj (hx.symm.trans hx')
    exact ⟨t, y, d, hy, job.symm.trans hd, rfl, before⟩
  · rintro ⟨t', y, d', hy, hd', same, cancelling⟩
    obtain ⟨x', hx', job, asked⟩ := h.before.task hy
    obtain rfl := h.coherent.single hx' hx (job.trans hd') hd same
    obtain rfl := Option.some.inj (hx.symm.trans hx')
    exact asked cancelling

end Amid

/-- The answer ends its dispatch well: it is contained, provider and surface can be read, and the
dispatch has not been asked to end. -/
structure Honoured (s : Session) (d : Dispatch) (r : Except Failure Value) : Prop where
  legible : ∃ p, s.providerOf d.record = some p ∧ s.Legible p d
  contained : Contained r
  unasked : s.asks d = false

def EndedWell (s : Session) (d : Dispatch) : Prop :=
  ∃ (t : TaskId) (x : Task), s.loop.tasks[t]? = some x ∧ x.job = .dispatch d ∧
    x.phase = .ended (.value true)

theorem EndedWell.path (h : u.EndedWell d) (path : u.Path v) : v.EndedWell d := by
  obtain ⟨t, x, hx, hd, he⟩ := h
  obtain ⟨y, hy, hj, hye⟩ := path.ended hx he
  exact ⟨t, y, hy, hj.trans hd, hye⟩

/-- All that has happened to registrations and notices came of the answers that were given, and those
that are honoured have ended their dispatches well. -/
structure Follows (s u v : Session) : Prop where
  path : u.Path v
  dealt : ∃ K, v.history = u.history ++ K ∧
    s.dealAll u.registry.records (answersIn K) = (v.registry.records, emittedIn K) ∧
    ∀ d r, (d, r) ∈ answersIn K → s.Honoured d r → v.EndedWell d

namespace Follows

theorem refl (s u : Session) : s.Follows u u := ⟨.refl, [], by simp, rfl, nofun⟩

theorem trans (h : s.Follows u v) (h' : s.Follows v w) : s.Follows u w := by
  obtain ⟨path, K, hK, dealt, well⟩ := h
  obtain ⟨path', K', hK', dealt', well'⟩ := h'
  refine ⟨path.trans path', K ++ K', by rw [hK', hK, List.append_assoc], ?_, fun d r hr honoured => ?_⟩
  · rw [answersIn_append, emittedIn_append, dealAll_append, dealt, dealt']
  · rw [answersIn_append, List.mem_append] at hr
    rcases hr with hr | hr
    · exact (well d r hr honoured).path path'
    · exact well' d r hr honoured

/-- Nothing comes of what neither changes registrations nor says anything of dispatches. -/
theorem of_path (path : u.Path v) (hK : v.history = u.history ++ K) (answers : answersIn K = [])
    (notices : emittedIn K = []) (still : ∀ e ∈ K, e.changesRecords = false) : s.Follows u v := by
  refine ⟨path, K, hK, ?_, fun d r hr => ?_⟩
  · rw [answers, notices, path.records hK still]
    rfl
  · rw [answers] at hr
    cases hr

theorem of_history (path : u.Path v) (same : v.history = u.history) : s.Follows u v :=
  .of_path path (K := []) (by rw [same, List.append_nil]) rfl rfl nofun

end Follows

namespace Amid
variable (steady : s.Steady last) (h : Amid s last u)
include steady h

theorem follows_of_unmarked (path : u.Path v) (rest : v.Path last) (hK : v.history = u.history ++ K)
    (unmarked : ∀ e ∈ K, e.mark? = none) : s.Follows u v := by
  have within {e : Entry} (he : e ∈ K) : e ∈ last.since s := mem_since h.before hK rest he
  refine .of_path path hK ?_ ?_ fun e he => ?_
  · refine List.filterMap_eq_nil_iff.mpr fun e he => ?_
    have silent := unmarked e he
    cases e with
    | answered d r => cases silent
    | _ => rfl
  · refine List.filterMap_eq_nil_iff.mpr fun e he => ?_
    have silent := unmarked e he
    cases e with
    | emitted d n => cases silent
    | _ => rfl
  · have silent := unmarked e he
    cases e with
    | registered id p => exact absurd (within he) (steady.registered id p)
    | removed id p => exact absurd (within he) (steady.removed id p)
    | disposed => exact absurd (within he) steady.disposed
    | dispatched | accepted => cases silent
    | _ => rfl

theorem follows_meanwhile (way : u.Meanwhile v) (rest : v.Path last) : s.Follows u v := by
  obtain ⟨K, hK⟩ := way.path.history_prefix
  exact h.follows_of_unmarked steady way.path rest hK (way.unmarked h.coherent hK fun d hd =>
    steady.dispatched d (mem_since h.before hK rest hd))

theorem not_cancelPending (runs : u.Runs t (.dispatch d)) (unasked : s.asks d = false) :
    u.loop.isCancelPending t = false := by
  rw [← h.cancelling_eq steady runs] at unasked
  obtain ⟨x, hx, _⟩ := runs
  rw [hx, Option.map_some, Option.getD_some] at unasked
  rw [Loop.isCancelPending, hx, Option.map_some, Option.getD_some, Bool.eq_false_iff]
  intro pending
  rw [h.asked t x hx pending] at unasked
  cases unasked

variable (observed : s.Observed)
include observed

theorem follows_answered (runs : u.Runs t (.dispatch d)) (stage : u.Stands d.key .entered)
    (hp : u.providerOf d.record = some p) (r : Except Failure Value)
    (rest : ((follow d p t (.answered r)).run u).2.Path last) :
    s.Follows u ((follow d p t (.answered r)).run u).2 := by
  let asked := s.asks d
  let v := ((conclude d p asked r).exec u).2
  let result := ((conclude d p asked r).exec u).1.map fun _ => true
  have same : ((u.loop.tasks[t]?).map Task.cancelling).getD false = asked := h.cancelling_eq steady runs
  have goes : ((follow d p t (.answered r)).run u).2 = ((finish t result).run v).2 := by
    show ((finish t (((conclude d p (((u.loop.tasks[t]?).map Task.cancelling).getD false) r).exec
      u).1.map fun _ => true)).run ((conclude d p (((u.loop.tasks[t]?).map Task.cancelling).getD false)
        r).exec u).2).2 = _
    rw [same]
  have hc : asked = true → u.IsCancelling t := by
    obtain ⟨x, hx, _⟩ := runs
    rw [hx] at same
    exact fun cancelling => ⟨x, hx, same.trans cancelling⟩
  obtain ⟨path, loop, may⟩ := Dispatch.concluded (r := r) runs stage hp hc
  have runs' : v.Runs t (.dispatch d) := runs.keeps loop
  have ends : v.Path ((finish t result).run v).2 :=
    (comes_finish (h.coherent.path path) runs' (fun d' hd => ⟨p, (Job.dispatch.inj hd) ▸
      path.providerOf hp, (Job.dispatch.inj hd) ▸ may⟩) result).path
  rw [goes] at rest ⊢
  have there : Amid s last v := h.next path (ends.trans rest)
    (habit_conclude (R := Equips) d p asked r u) (habit_conclude (R := KeepsAsked) d p asked r u)
  have reads := h.readsAlike steady
  have observed' : u.Observed := observed.congr h.equips.listeners
  obtain ⟨x, hx, rfl⟩ := Option.map_eq_some_iff.mp hp
  obtain ⟨⟨⟨K, hK, answers, notices⟩, _, _⟩, records⟩ := deals_conclude observed' asked r hx
  refine ⟨path.trans ends, K, hK, ?_, fun d' r' hr honoured => ?_⟩
  · have registrations : v.registry.records = _ := records
    show _ = (v.registry.records, _)
    rw [answers, dealAll_cons_some hx, registrations, notices, reads.noticesUpon, reads.received]
    simp [dealAll, asked]
  · rw [answers, List.mem_singleton] at hr
    obtain ⟨rfl, rfl⟩ := Prod.mk.inj hr
    obtain ⟨⟨p, known, legible⟩, contained, unasked⟩ := honoured
    obtain rfl := Option.some.inj (hp.symm.trans (h.before.providerOf known))
    have done : result = .ok true := by
      show ((conclude d' x.provider (s.asks d') r').exec u).1.map _ = _
      rw [unasked, conclude_ok observed' (reads.legible legible) contained hx]
      rfl
    obtain ⟨y, hy, job, phase⟩ := runs'.turned (v.loop.keeps_finish t (.value true)) nofun
    refine ⟨t, y, ?_, job, phase⟩
    show (v.loop.finish t (endingOf (v.loop.isCancelPending t) _)).tasks[t]? = some y
    rw [there.not_cancelPending steady runs' unasked, done]
    exact hy

theorem follows_follow (runs : u.Runs t (.dispatch d)) (stage : u.Stands d.key .entered)
    (hp : u.providerOf d.record = some p) (g : Progress)
    (rest : ((follow d p t g).run u).2.Path last) : s.Follows u ((follow d p t g).run u).2 := by
  have path := (comes_follow h.coherent runs stage hp g).path
  cases g with
  | answered r => exact h.follows_answered steady observed runs stage hp r rest
  | paused | awaiting => exact .of_history path rfl

theorem follows_resumeDispatch (runs : u.Runs t (.dispatch d)) (stage : u.Stands d.key .entered)
    (reply : Reply) (rest : ((resumeDispatch d t reply).run u).2.Path last) :
    s.Follows u ((resumeDispatch d t reply).run u).2 := by
  obtain ⟨p, hp, _⟩ := h.coherent.exec_provider (h.coherent.dispatched_of_runs runs)
  rw [run_resumeDispatch hp] at rest ⊢
  have way := meanwhile_advance (p := p) reply runs stage
  have ends := (comes_follow (h.coherent.path way.path) (runs.keeps way.loop)
    (way.stands stage nofun) (way.path.providerOf hp) ((advance p t reply).run u).1).path
  have there : Amid s last ((advance p t reply).run u).2 := h.next way.path (ends.trans rest)
    (habit_advance (R := Equips) p t reply u) (habit_advance (R := KeepsAsked) p t reply u)
  exact (h.follows_meanwhile steady way there.after).trans (there.follows_follow steady observed
    (runs.keeps way.loop) (way.stands stage nofun) (way.path.providerOf hp) _ rest)

theorem follows_startDispatch (runs : u.Runs t (.dispatch d)) (stage : u.Stands d.key .begun)
    (rest : ((startDispatch d t).run u).2.Path last) :
    s.Follows u ((startDispatch d t).run u).2 := by
  have path := (comes_startDispatch h.coherent runs stage).path
  obtain ⟨p, hp, he⟩ := h.coherent.exec_provider (h.coherent.dispatched_of_runs runs)
  cases hn : u.nameOf p with
  | error f =>
    rw [run_startDispatch_unnamed he hn] at path ⊢
    exact .of_history path rfl
  | ok name =>
    obtain ⟨u₁, announced, path₁, loop, entered⟩ := exec_announce_ok (p := p) runs stage hn
    have way := meanwhile_start (runs.keeps loop) entered (path₁.providerOf hp)
    have runs₂ := (runs.keeps loop).keeps way.loop
    have ends := (comes_follow ((h.coherent.path path₁).path way.path) runs₂
      (way.stands entered nofun) (way.path.providerOf (path₁.providerOf hp))
        ((start d p t).run u₁).1).path
    rw [run_startDispatch_named hp (by rw [announced]), announced] at rest ⊢
    have equips : u.Equips ((announce d p).exec u).2 := habit_announce d p u
    have asked : u.KeepsAsked ((announce d p).exec u).2 := habit_announce d p u
    rw [announced] at equips asked
    have there₁ := h.next path₁ (way.path.trans (ends.trans rest)) equips asked
    have there₂ : Amid s last ((start d p t).run u₁).2 := there₁.next way.path (ends.trans rest)
      (habit_start (R := Equips) d p t u₁) (habit_start (R := KeepsAsked) d p t u₁)
    -- the one thing that is said of the dispatch on the way is that it has entered
    have enters : s.Follows u u₁ := by
      rw [exec_announce_named hn, Prod.mk.injEq] at announced
      obtain ⟨-, rfl⟩ := announced
      exact .of_path path₁ (K := [_, _]) (by rw [history_noted, history_noted, List.append_assoc]; rfl)
        rfl rfl (by simp [Entry.changesRecords])
    exact enters.trans ((there₁.follows_meanwhile steady way there₂.after).trans
      (there₂.follows_follow steady observed runs₂ (way.stands entered nofun)
        (way.path.providerOf (path₁.providerOf hp)) _ rest))

omit observed in
theorem follows_startLint {context : EditContext} (runs : u.Runs t (.lint context))
    (barren : u.Barren t) (rest : ((startLint context t).run u).2.Path last) :
    s.Follows u ((startLint context t).run u).2 := by
  have way := (Round.started h.coherent runs).meanwhile
  have ends := (comes_started h.coherent runs barren).path
  refine (h.follows_meanwhile steady way (ends.trans rest)).trans (.of_history ends ?_)
  rw [run_startLint]
  split <;> rfl

/-- A task that has its turn lets nothing happen but what was to come of answers. -/
theorem follows_turn (idle : u.Idle) {others : List Ready} (hr : u.loop.ready = .step t :: others)
    (hx : u.loop.tasks[t]? = some x) (rest : u.tick.Path last) : s.Follows u u.tick := by
  have path := (comes_tick h.coherent idle).path
  have runs : (u.woken t).Runs t x.job := runs_wake hx
  have woken (before : ∀ e, x.phase ≠ .ended e) : u.Path (u.woken t) := path_woken idle hr hx before
  have wakes (before : ∀ e, x.phase ≠ .ended e) : s.Follows u (u.woken t) :=
    .of_history (woken before) rfl
  have there (before : ∀ e, x.phase ≠ .ended e) (rest : (u.woken t).Path last) :
      Amid s last (u.woken t) :=
    h.next (woken before) rest (.of_loop u _) fun asked =>
      Loop.Asked.wake (asked.of_tasks_eq rfl) t
  have resumed {d : Dispatch} (reply : Reply) (job : x.job = .dispatch d)
      (before : ∀ e, x.phase ≠ .ended e) (stage : u.Stands d.key .entered)
      (rest : ((resumeDispatch d t reply).run (u.woken t)).2.Path last) :
      s.Follows u ((resumeDispatch d t reply).run (u.woken t)).2 := by
    have way := (comes_resumeDispatch (h.coherent.path (woken before)) (job ▸ runs) stage reply).path
    exact (wakes before).trans ((there before (way.trans rest)).follows_resumeDispatch steady observed
      (job ▸ runs) stage reply rest)
  have turn := resumption (u.woken t) t x
  rw [tick_step hr hx] at rest path ⊢
  generalize ((resume t x).run (u.woken t)).2 = v at turn rest path
  cases turn with
  | cancelled | decided => exact .of_history path rfl
  | lint fresh job =>
    have before : ∀ e, x.phase ≠ .ended e := by simp [fresh]
    have barren : (u.woken t).Barren t := (h.coherent.barren_of_fresh hx fresh).wake
    have way := (comes_startLint (h.coherent.path (woken before)) (job ▸ runs) barren).path
    exact (wakes before).trans
      ((there before (way.trans rest)).follows_startLint steady (job ▸ runs) barren rest)
  | dispatch fresh job =>
    have before : ∀ e, x.phase ≠ .ended e := by simp [fresh]
    have stage := h.coherent.begun_of_fresh hx job fresh
    have way := (comes_startDispatch (h.coherent.path (woken before)) (job ▸ runs) stage).path
    exact (wakes before).trans
      ((there before (way.trans rest)).follows_startDispatch steady observed (job ▸ runs) stage rest)
  | paused phase job =>
    exact resumed _ job (by simp [phase]) (h.coherent.entered_of_paused hx job phase) rest
  | settled phase job =>
    exact resumed _ job (by simp [phase]) (h.coherent.entered_of_awaiting hx job phase) rest
  | idle =>
    rw [putBack_woken hr hx]
    exact .of_history (.single (.pop hr)) rfl

/-- However a session moves in a steady stretch, nothing happens but what was to come of answers. -/
theorem follows_move (idle : u.Idle) (m : Move) (rest : (u.move m).Path last) :
    s.Follows u (u.move m) := by
  cases m with
  | act a =>
    have changes : Changes u (u.perform a).2 := changes_perform a u
    exact h.follows_meanwhile steady changes.meanwhile rest
  | tick =>
    have path := (comes_tick h.coherent idle).path
    change u.tick.Path last at rest
    show s.Follows u u.tick
    cases hr : u.loop.ready with
    | nil =>
      have same : u.tick = u := by simp only [tick, hr]
      rw [same]
      exact .refl s u
    | cons first others =>
      cases first with
      | memberEnded parent member =>
        refine .of_history path ?_
        simp only [tick, hr]
        rfl
      | step t =>
        cases hx : u.loop.tasks[t]? with
        | some x => exact h.follows_turn steady observed idle hr hx rest
        | none =>
          refine .of_history path ?_
          simp only [tick, hr]
          exact congrArg (·.2.history) (run_step_none (s := u.onLoop fun l =>
            { l with ready := others }) hx)

end Amid

/-- Nothing happens in a steady stretch of a run but what was to come of answers. -/
theorem follows_run (steady : s.Steady last) (observed : s.Observed) (h : Amid s last u)
    (idle : u.Idle) (moves : List Move) (hlast : last = u.run moves) : s.Follows u last := by
  induction moves generalizing u with
  | nil =>
    subst hlast
    exact .refl s _
  | cons m moves ih =>
    have comes := comes_move h.coherent idle m
    have rest : (u.move m).Path last :=
      hlast ▸ (comes_run (h.coherent.path comes.path) comes.idle moves).path
    have there : Amid s last (u.move m) := h.next comes.path rest (lasting_move (R := Equips) u m)
      (lasting_move (R := KeepsAsked) u m)
    exact (h.follows_move steady observed idle m rest).trans (ih there comes.idle hlast)

end Session
end LintBroker

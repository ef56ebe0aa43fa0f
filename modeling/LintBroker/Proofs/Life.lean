import LintBroker.Proofs.Computation

/-!
# The life of a dispatch

A dispatch is told apart from all others by its registration and its generation. What the journal
says of it is its life: that it was opened, that its beginning was announced, that it entered the
part whose end is announced, how its provider answered, whether the answer was news, what was
surfaced, and that its end was announced. A stage is a beginning of that list; the marks of a stage
determine it.
-/
namespace LintBroker

/-- The path that a beginning and an end carry: that of the context for the scope of file, and none
for the scope of project. -/
def EditContext.pathIn (c : EditContext) : Scope → Value
  | .file => c.filePath
  | .project => .none

/-- The buffer that an update carries: that of the context for the scope of file, and none for the
scope of project. -/
def EditContext.bufferIn (c : EditContext) : Scope → Value
  | .file => c.buffer
  | .project => .none

inductive Mark
  | opened
  | begun
  | entered
  | answered (r : Except Failure Value)
  | accepted (news : Bool)
  | updated (messages : Value)
  | finished

/-- What tells dispatches apart: the registration and the count of its requests. -/
abbrev DispatchKey := Nat × Nat

namespace Dispatch

def key (d : Dispatch) : DispatchKey := (d.record, d.generation)

def messagesIn : Except Failure Value → List Value
  | .ok v => messagesOf v
  | .error _ => []

end Dispatch

def Notice.mark : Notice → Mark
  | .begin .. => .begun
  | .update _ messages _ => .updated messages
  | .finish .. => .finished

namespace Entry

/-- The dispatch that an entry is about, and what it says of it. -/
def mark? : Entry → Option (Dispatch × Mark)
  | .dispatched d => some (d, .opened)
  | .entered d => some (d, .entered)
  | .answered d r => some (d, .answered r)
  | .accepted d news => some (d, .accepted news)
  | .emitted d n => some (d, n.mark)
  | _ => none

def markOf (k : DispatchKey) (e : Entry) : Option Mark :=
  match e.mark? with
  | some (d, m) => if d.key = k then some m else none
  | none => none

end Entry

/-- All that a history says of the dispatch of a key, in order. -/
def life (k : DispatchKey) (J : List Entry) : List Mark := J.filterMap (Entry.markOf k)

section life
variable {k : DispatchKey} {J : List Entry} {e : Entry} {d : Dispatch} {m : Mark}

@[simp] theorem life_nil : life k [] = [] := rfl

theorem life_append (J' : List Entry) : life k (J ++ J') = life k J ++ life k J' :=
  List.filterMap_append

theorem life_concat : life k (J ++ [e]) = life k J ++ (e.markOf k).toList := by
  rw [life_append]
  cases h : e.markOf k <;> simp [life, h]

theorem life_concat_of_none (h : e.mark? = none) : life k (J ++ [e]) = life k J := by
  simp [life_concat, Entry.markOf, h]

theorem life_concat_self (h : e.mark? = some (d, m)) :
    life d.key (J ++ [e]) = life d.key J ++ [m] := by
  simp [life_concat, Entry.markOf, h]

theorem life_concat_other (h : e.mark? = some (d, m)) (hk : d.key ≠ k) :
    life k (J ++ [e]) = life k J := by
  simp [life_concat, Entry.markOf, h, hk]

theorem mem_life_iff : m ∈ life k J ↔ ∃ e ∈ J, ∃ d, e.mark? = some (d, m) ∧ d.key = k := by
  simp only [life, List.mem_filterMap, Entry.markOf]
  refine exists_congr fun e => and_congr_right fun _ => ?_
  cases h : e.mark? with
  | none => simp
  | some x =>
    obtain ⟨d, m'⟩ := x
    by_cases hk : d.key = k <;> simp [hk]

theorem mem_life (he : e ∈ J) (h : e.mark? = some (d, m)) : m ∈ life d.key J :=
  mem_life_iff.mpr ⟨e, he, d, h, rfl⟩

/-- Only when its answer is presented is it said of a dispatch whether that was news. -/
theorem accepted_of_life {news : Bool} (h : .accepted news ∈ life k J) :
    ∃ d, d.key = k ∧ .accepted d news ∈ J := by
  obtain ⟨e, he, d, hd, hk⟩ := mem_life_iff.mp h
  refine ⟨d, hk, ?_⟩
  cases e with
  | accepted d' news' =>
    obtain ⟨rfl, h⟩ := Prod.mk.inj (Option.some.inj hd)
    rwa [Mark.accepted.inj h] at he
  | emitted d' n => cases n <;> simp [Entry.mark?, Notice.mark] at hd
  | _ => simp [Entry.mark?] at hd

end life

/-- What became of a provider's answer: it was not presented to the registration, it was stale, it
was news, or it was surfaced. -/
inductive Verdict
  | unheard
  | stale
  | news
  | surfaced

/-- The marks of a verdict on an answer. -/
def Verdict.marks (r : Except Failure Value) : Verdict → List Mark
  | .unheard => []
  | .stale => [.accepted false]
  | .news => [.accepted true]
  | .surfaced => [.accepted true, .updated (.list (Dispatch.messagesIn r))]

/-- How far a dispatch has come. -/
inductive Stage
  | unopened
  | opened
  | begun
  | entered
  | answered (r : Except Failure Value) (v : Verdict)
  | closed (r : Except Failure Value) (v : Verdict)

namespace Stage

def marks : Stage → List Mark
  | unopened => []
  | opened => [.opened]
  | begun => [.opened, .begun]
  | entered => [.opened, .begun, .entered]
  | answered r v => [.opened, .begun, .entered, .answered r] ++ v.marks r
  | closed r v => [.opened, .begun, .entered, .answered r] ++ v.marks r ++ [.finished]

theorem marks_injective : Function.Injective marks := by
  intro x y h
  cases x <;> cases y <;> simp [marks] at h ⊢
  all_goals
    rename_i r v r' v'
    cases v <;> cases v' <;> simp_all [Verdict.marks]

/-- Only a dispatch of which nothing was said is opened. -/
theorem unopened_of_marks {x y : Stage} (h : y.marks = x.marks ++ [.opened]) : x = .unopened := by
  cases x <;> cases y <;> simp [marks] at h ⊢
  all_goals
    rename_i r v r' v'
    cases v <;> cases v' <;> simp [Verdict.marks] at h

end Stage

namespace Session

def Stands (s : Session) (k : DispatchKey) (x : Stage) : Prop := life k s.history = x.marks

variable {s : Session} {k : DispatchKey} {x y : Stage}

theorem Stands.unique (h : s.Stands k x) (h' : s.Stands k y) : x = y :=
  Stage.marks_injective (h.symm.trans h')

theorem Stands.noted_of_none {e : Entry} (h : s.Stands k x) (he : e.mark? = none) :
    (s.noted e).Stands k x := by
  unfold Stands
  rw [history_noted, life_concat_of_none he, h]

theorem Stands.noted_of_ne {e : Entry} {d : Dispatch} {m : Mark} (h : s.Stands k x)
    (he : e.mark? = some (d, m)) (hk : d.key ≠ k) : (s.noted e).Stands k x := by
  unfold Stands
  rw [history_noted, life_concat_other he hk, h]

theorem Stands.noted {e : Entry} {d : Dispatch} {m : Mark} (h : s.Stands d.key x)
    (he : e.mark? = some (d, m)) (hy : y.marks = x.marks ++ [m]) : (s.noted e).Stands d.key y := by
  unfold Stands
  rw [history_noted, life_concat_self he, h, hy]

end Session
end LintBroker

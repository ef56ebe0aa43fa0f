import LintBroker.Proofs.Endings
import LintBroker.Proofs.Roster
import LintBroker.Proofs.TwinTurns

/-!
# How a dispatch is settled

When the answer of a provider is there it is presented to the registration, whatever it is, and the
registration remembers it if it is newer than all before. Only then it is found out whether messages
are surfaced: the answer has to be no fault and news, the registration in force, and a surface is
asked last, only for messages about one file. Whatever comes of that, the end is announced.

The proceedings of a settlement are given here as a whole: what is asked, what is emitted, and in
which order.
-/
namespace LintBroker
open Session Act

namespace Dispatch

/-- The messages of an answer: the items of a list or a tuple in order, and none of anything else. -/
def IsMessagesOf (v : Value) (messages : List Value) : Prop :=
  v = .list messages ∨ v = .tuple messages ∨
    (∀ items, v ≠ .list items ∧ v ≠ .tuple items) ∧ messages = []

theorem isMessagesOf_iff {v : Value} {messages : List Value} :
    IsMessagesOf v messages ↔ messages = messagesOf v := by
  cases v <;> simp [IsMessagesOf, messagesOf, Value.sequence?, eq_comm]

end Dispatch

open Dispatch

namespace Session
variable {s s' : Session} {d : Dispatch} {p : ProviderId} {t : TaskId} {x : Record Nat}
  {scope : Scope} {r : Except Failure Value} {n : Notice}

/-- The answer is a list or a tuple, or its provider has a name by which anything else is reported. -/
def Reportable (s : Session) (p : ProviderId) (r : Except Failure Value) : Prop :=
  (∃ v items, r = .ok v ∧ v.sequence? = some items) ∨ ∃ name, s.nameOf p = .ok name

/-- The update that is due of an answer to a dispatch of a registration: the answer is no fault and
news, the registration is in force, and the messages are about the project or their surface says that
it is not destroyed. -/
def Due (s : Session) (d : Dispatch) (x : Record Nat) (scope : Scope) (r : Except Failure Value)
    (n : Notice) : Prop :=
  ∃ v messages, r = .ok v ∧ IsMessagesOf v messages ∧ x.counters.lastReceived < d.generation ∧
    x.activated = true ∧
    (scope = .project ∨ ∃ a, s.answerOf d.context.surface .destroyed = .ok a ∧ a.truthy = false) ∧
    n = .update x.provider (.list messages) (d.context.bufferIn scope)

/-- What is asked of the surface, which may be unknown to the host: whether it is destroyed, if all
else is for an update and the messages are about one file. -/
def destructionAsked (s : Session) (d : Dispatch) (x : Record Nat) (scope : Scope)
    (r : Except Failure Value) : List Entry :=
  if r.isOk ∧ x.counters.lastReceived < d.generation ∧ x.activated ∧ scope = .file ∧
      (s.host.surfaces.get? d.context.surface).isSome then
    [.surfaceAsked d.context.surface .destroyed]
  else []

/-- A dispatch of a registration was settled by an answer, from one session to another. -/
structure Settles (s s' : Session) (d : Dispatch) (x : Record Nat) (scope : Scope)
    (r : Except Failure Value) : Prop where
  /-- The answer counts as received exactly if it is newer than all that were. -/
  received : ∃ y, s'.registry.records[d.record]? = some y ∧ y.counters.lastReceived =
    if x.counters.lastReceived < d.generation then d.generation else x.counters.lastReceived
  /-- The update that is due is emitted, and no other, and then the end is announced; that fails
  at most after an update, whose listeners may do anything. -/
  proceedings : ∃ update finish : Option Notice,
    s'.proceedings = s.proceedings ++
      [.answered d r, .accepted d (x.counters.lastReceived < d.generation)] ++
      s.destructionAsked d x scope r ++ (update.toList ++ finish.toList).map (.emitted d) ∧
    (∀ n, update = some n ↔ s.Due d x scope r n) ∧ (∀ n, finish = some n → n.kind = .finish) ∧
    (update = none →
      finish = some (.finish x.provider (d.context.pathIn scope)))

end Session

/-! ### The steps of a settlement -/

namespace Dispatch
variable {s s' : Session} {d : Dispatch} {p : ProviderId} {t : TaskId} {x : Record Nat}
  {scope : Scope} {r : Except Failure Value} {n : Notice}

theorem exec_contain_of_reportable (reportable : s.Reportable p r) (contained : Contained r) :
    ((contain p false r).exec s).1 = .ok (outcomeOf r) := by
  rcases reportable with ⟨v, items, rfl, sequence⟩ | named
  · simp [contain, sequence, outcomeOf]
  · exact exec_contain named contained

theorem isNews_eq (c : Counters Nat) (g : Nat) : c.isNews g = decide (c.lastReceived < g) := by
  simp only [Counters.isNews, ← decide_not, Nat.not_le]

theorem proceedings_askSurface_destroyed (id : SurfaceId) (s : Session) :
    ((askSurface id .destroyed).exec s).2.proceedings = s.proceedings ++
      if (s.host.surfaces.get? id).isSome then [.surfaceAsked id .destroyed] else [] := by
  unfold askSurface
  rw [exec_bind_ok exec_get]
  cases known : s.host.surfaces.get? id with
  | none => simp [exec_expect, exec_bind]
  | some surface =>
    have found : (expect (some surface) id).exec s = (.ok surface, s) := rfl
    rw [exec_bind_ok found, exec_bind_ok (exec_note _), exec_take, proceedings_noted]
    simp [Entry.isProceeding]

theorem proceedings_shouldSurface (hx : s.registry.records[d.record]? = some x)
    (hs : s.scopeOf p = .ok scope) :
    ((shouldSurface d p).exec s).2.proceedings = s.proceedings ++
      if x.activated ∧ scope = .file ∧ (s.host.surfaces.get? d.context.surface).isSome then
        [.surfaceAsked d.context.surface .destroyed]
      else [] := by
  have found : (Broker.record d.record).exec s = (.ok x, s) := by
    simp [Broker.record, exec_bind, hx]
  have read : (Broker.scopeOf p).exec s = (.ok scope, s) := by rw [Broker.exec_scopeOf, hs]
  rw [shouldSurface, exec_bind_ok found]
  cases x.activated with
  | false => simp
  | true =>
    rw [Bool.not_true, if_neg Bool.false_ne_true, exec_bind_ok read]
    cases scope with
    | project => simp
    | file =>
      simp only [true_and]
      rw [← proceedings_askSurface_destroyed, bind_pure_comp, exec_map]

/-- The update that is made of messages, if any is made. -/
private theorem surfaced (hx : s.registry.records[d.record]? = some x)
    (hs : s.scopeOf p = .ok scope) (messages : Value) :
    let out := (do
      if ← shouldSurface d p then return some (← Round.updateNotice p d.context messages)
      return none : Act (Option Notice)).exec s
    Quiet s out.2 ∧ out.2.proceedings = s.proceedings ++
        (if x.activated ∧ scope = .file ∧ (s.host.surfaces.get? d.context.surface).isSome then
          [.surfaceAsked d.context.surface .destroyed]
        else []) ∧
      ∀ n, out.1 = .ok (some n) ↔ s.Surfaces d p ∧
        n = .update p messages (d.context.bufferIn scope) := by
  intro out
  have asked := proceedings_shouldSurface hx hs
  have may := shouldSurface_iff (p := p) hx
  have quiet := quiet_shouldSurface d p s
  obtain ⟨b, s', he⟩ | ⟨f, s', he⟩ := exec_cases (shouldSurface d p) s
  · have goes : out = _ := exec_bind_ok he
    rw [he] at asked may
    replace quiet : Quiet s s' := by
      change Quiet s ((shouldSurface d p).exec s).2 at quiet
      rwa [he] at quiet
    cases b with
    | false =>
      rw [goes]
      exact ⟨quiet, asked, fun n => by simp [← may]⟩
    | true =>
      have read : (Round.updateNotice p d.context messages).exec s' =
          (.ok (.update p messages (d.context.bufferIn scope)), s') := by
        rw [exec_updateNotice, quiet.scopeOf, hs]
        rfl
      have made : out = (.ok (some _), s') := goes.trans (exec_bind_ok read)
      rw [made]
      exact ⟨quiet, asked, fun n => by simp [← may, eq_comm]⟩
  · have goes : out = _ := exec_bind_error he
    rw [he] at asked may
    replace quiet : Quiet s s' := by
      change Quiet s ((shouldSurface d p).exec s).2 at quiet
      rwa [he] at quiet
    rw [goes]
    exact ⟨quiet, asked, fun n => by simp [← may]⟩

theorem surfaces_iff (hx : s.registry.records[d.record]? = some x) (hs : s.scopeOf p = .ok scope) :
    s.Surfaces d p ↔ x.activated = true ∧ (scope = .project ∨
      ∃ a, s.answerOf d.context.surface .destroyed = .ok a ∧ a.truthy = false) := by
  simp only [Session.Surfaces, Session.InForce, hx, hs, Option.some.injEq, exists_eq_left',
    Except.ok.injEq]
  cases scope <;> simp

/-- What comes of an answer: it was presented, and then the update that is due was made. -/
structure Responds (s : Session) (d : Dispatch) (x : Record Nat) (scope : Scope)
    (r : Except Failure Value) (out : Except Failure (Option Notice) × Session) : Prop where
  readable : out.2.scopeOf x.provider = .ok scope
  record : out.2.registry.records[d.record]? =
    some { x with counters := x.counters.receive d.generation }
  proceedings : out.2.proceedings = s.proceedings ++
    [.answered d r, .accepted d (x.counters.lastReceived < d.generation)] ++
    s.destructionAsked d x scope r
  due : ∀ n, out.1 = .ok (some n) ↔ s.Due d x scope r n

private theorem responds_presented (hx : s.registry.records[d.record]? = some x)
    (hs : s.scopeOf p = .ok scope) (r : Except Failure Value) (news : Bool) :
    let out := (do
      if !news then
        let name ← Broker.nameOf p
        trace ("Dropping stale response " ++ toString d.generation ++ " from " ++ Text.quoted name)
        return none
      match outcomeOf r with
      | .fault => return none
      | .messages items => do
        if ← shouldSurface d p then
          return some (← Round.updateNotice p d.context (.list items))
        return none : Act (Option Notice)).exec s
    Quiet s out.2 ∧ out.2.proceedings = s.proceedings ++
        (if r.isOk ∧ news ∧ x.activated ∧ scope = .file ∧
            (s.host.surfaces.get? d.context.surface).isSome then
          [.surfaceAsked d.context.surface .destroyed]
        else []) ∧
      ∀ n, out.1 = .ok (some n) ↔ ∃ v, r = .ok v ∧ news = true ∧ s.Surfaces d p ∧
        n = .update p (.list (messagesOf v)) (d.context.bufferIn scope) := by
  intro out
  cases news with
  | false =>
    have dropped : KeepsTo Murmur (do
        let name ← Broker.nameOf p
        trace ("Dropping stale response " ++ toString d.generation ++ " from " ++ Text.quoted name)
        return none : Act (Option Notice)).run :=
      keepsTo_bind (Broker.keepsTo_nameOf p) fun _ => keepsTo_bind (murmur_lines _ rfl) fun _ =>
        keepsTo_pure _
    have murmur : Murmur s out.2 := dropped s
    have nothing : ∀ n, out.1 ≠ .ok (some n) := by
      intro n
      show Prod.fst (Act.exec (Broker.nameOf p >>= _) s) ≠ _
      rw [exec_bind, Broker.exec_nameOf]
      cases s.nameOf p with
      | error f => nofun
      | ok name =>
        show (Except.ok none : Except Failure (Option Notice)) ≠ _
        simp
    have aside : out.2.proceedings = s.proceedings := murmur.2
    exact ⟨murmur.1, by simpa using aside, fun n => by simp [nothing n]⟩
  | true =>
    cases r with
    | error f =>
      have nothing : out = (.ok none, s) := rfl
      rw [nothing]
      exact ⟨.refl s, by simp [Except.isOk, Except.toBool], by simp⟩
    | ok v =>
      obtain ⟨quiet, asked, due⟩ := surfaced hx hs (.list (messagesOf v))
      refine ⟨quiet, ?_, fun n => ?_⟩
      · rw [show out.2.proceedings = _ from asked]
        simp [Except.isOk, Except.toBool]
      · rw [show out.1 = .ok (some n) ↔ _ from due n]
        simp

/-- An answer is presented, and then the update that is due is made. -/
theorem responds (hx : s.registry.records[d.record]? = some x)
    (hs : s.scopeOf x.provider = .ok scope) (contained : Contained r)
    (reportable : s.Reportable x.provider r) :
    Responds s d x scope r ((respond d x.provider false r).exec s) := by
  let s₁ := s.noted (.answered d r)
  let u := ((contain x.provider false r).exec s₁).2
  have murmur : Murmur s₁ u := keepsTo_contain murmur_lines x.provider false r s₁
  have worth : (awaited (contain x.provider false r)).exec s₁ = (.ok (outcomeOf r), u) := by
    rw [exec_awaited, exec_contain_of_reportable (s := s₁) reportable contained]
    rfl
  have hu : u.registry.records[d.record]? = some x := by rw [murmur.1.registry]; exact hx
  have news := isNews_eq x.counters d.generation
  let w := ((accept d).exec u).2
  have accepted : (accept d).exec u = (.ok (decide (x.counters.lastReceived < d.generation)), w) := by
    rw [← news]
    exact Prod.ext (by rw [exec_accept hu]) rfl
  have hw : w.registry.records[d.record]? =
      some { x with counters := x.counters.receive d.generation } := record_accept hu
  have host : w.host = s.host := by
    show ((accept d).exec u).2.host = _
    rw [exec_accept hu]
    exact murmur.1.host
  have attributes : w.attributesOf x.provider = s.attributesOf x.provider := by
    simp only [attributesOf, host]
  have readable : w.scopeOf x.provider = .ok scope := by
    rw [← hs, scopeOf, attributes, scopeOf]
  have proceedings : w.proceedings = s.proceedings ++
      [.answered d r, .accepted d (x.counters.lastReceived < d.generation)] := by
    show ((accept d).exec u).2.proceedings = _
    rw [exec_accept hu, proceedings_noted, news]
    show u.proceedings ++ _ = _
    rw [murmur.2, proceedings_noted, List.append_assoc]
    rfl
  obtain ⟨quiet, asked, due⟩ :=
    responds_presented hw readable r (x.counters.lastReceived < d.generation)
  unfold respond
  rw [exec_bind_ok (exec_note _), exec_bind_ok worth, exec_bind_ok accepted]
  have records := congrArg (fun reg : Registry => reg.records[d.record]?) quiet.registry
  refine ⟨(quiet.scopeOf _).trans readable, records.trans hw, asked.trans ?_,
    fun n => (due n).trans ?_⟩
  · rw [proceedings, host]
    simp [destructionAsked]
  · rw [surfaces_iff hw readable]
    simp only [Due, isMessagesOf_iff, answerOf, host, decide_eq_true_eq]
    constructor
    · rintro ⟨v, rfl, newer, ⟨active, shows⟩, rfl⟩
      exact ⟨v, _, rfl, rfl, newer, active, shows, rfl⟩
    · rintro ⟨v, _, rfl, rfl, newer, active, shows, rfl⟩
      exact ⟨v, rfl, newer, ⟨active, shows⟩, rfl⟩

theorem counters_emit (handling : Option Failure) (d : Dispatch) (n : Notice) {id : RecordId}
    (hx : s.registry.records[id]? = some x) :
    ∃ y, ((emit handling d n).exec s).2.registry.records[id]? = some y ∧ y.counters = x.counters := by
  obtain ⟨y, hy, -, counters⟩ := (changes_emit handling d n s).record_forth hx
  exact ⟨y, hy, counters⟩

/-- The end is announced if the scope of the provider can be read, and otherwise nothing is done. -/
theorem exec_announceEnd (d : Dispatch) (p : ProviderId) (leaving : Option Failure) (s : Session) :
    (∃ scope, s.scopeOf p = .ok scope ∧ (announceEnd d p leaving).exec s =
      (emit leaving d (.finish p (d.context.pathIn scope))).exec s) ∨
    (∃ f, s.scopeOf p = .error f) ∧ ∃ e, (announceEnd d p leaving).exec s = (.error e, s) := by
  unfold announceEnd
  cases hs : s.scopeOf p with
  | error f =>
    obtain ⟨e, he⟩ := exec_during_error leaving
      (show (Round.finishNotice p d.context).exec s = (.error f, s) by
        rw [exec_finishNotice, hs]; rfl)
    exact .inr ⟨⟨f, rfl⟩, e, exec_bind_error he⟩
  | ok scope =>
    have he := exec_during_ok leaving
      (show (Round.finishNotice p d.context).exec s =
          (.ok (.finish p (d.context.pathIn scope)), s) by
        rw [exec_finishNotice, hs]; rfl)
    exact .inl ⟨scope, rfl, exec_bind_ok he⟩

theorem announces_end (leaving : Option Failure) (hx : s.registry.records[d.record]? = some x) :
    ∃ finish : Option Notice,
      ((announceEnd d p leaving).exec s).2.proceedings =
        s.proceedings ++ finish.toList.map (.emitted d) ∧
      (∀ n, finish = some n → n.kind = .finish) ∧
      (∀ scope, s.scopeOf p = .ok scope →
        finish = some (.finish p (d.context.pathIn scope))) ∧
      ∃ y, ((announceEnd d p leaving).exec s).2.registry.records[d.record]? = some y ∧
        y.counters = x.counters := by
  rcases exec_announceEnd d p leaving s with ⟨scope, hs, emits⟩ | ⟨⟨f, hs⟩, e, fails⟩
  · rw [emits]
    refine ⟨some _, proceedings_emit leaving d _ s, ?_, ?_, counters_emit leaving d _ hx⟩
    · rintro n hn
      rw [← Option.some.inj hn]
      rfl
    · rintro scope' hs'
      rw [hs] at hs'
      rw [Except.ok.inj hs']
  · rw [fails]
    refine ⟨none, by simp, nofun, fun scope hs' => ?_, x, hx, rfl⟩
    rw [hs] at hs'
    cases hs'

theorem delivers_response {out : Except Failure (Option Notice) × Session} {cancelling : Bool}
    (responded : (respond d p cancelling r).exec s = out)
    (hx : out.2.registry.records[d.record]? = some x) :
    ∃ update : Option Notice,
      ((deliver d p cancelling r).exec s).2.proceedings =
        out.2.proceedings ++ update.toList.map (.emitted d) ∧
      (∀ n, update = some n ↔ out.1 = .ok (some n)) ∧
      (update = none → ((deliver d p cancelling r).exec s).2 = out.2) ∧
      ∃ y, ((deliver d p cancelling r).exec s).2.registry.records[d.record]? = some y ∧
        y.counters = x.counters := by
  obtain ⟨_ | (_ | n), s'⟩ := out
  · rw [deliver, exec_bind_error responded]
    exact ⟨none, by simp, by simp, fun _ => rfl, x, hx, rfl⟩
  · rw [deliver, exec_bind_ok responded]
    exact ⟨none, by simp, by simp, fun _ => rfl, x, hx, rfl⟩
  · rw [deliver, exec_bind_ok responded]
    exact ⟨some n, proceedings_emit none d n s', fun m => by simp, by simp,
      counters_emit none d n hx⟩

/-- The session after a dispatch was concluded is that in which its end was announced. -/
theorem session_conclude (d : Dispatch) (p : ProviderId) (cancelling : Bool)
    (r : Except Failure Value) (s : Session) :
    ((conclude d p cancelling r).exec s).2 =
      ((announceEnd d p (failure? ((deliver d p cancelling r).exec s).1)).exec
        ((deliver d p cancelling r).exec s).2).2 := by
  rw [conclude, exec_bind_ok (exec_attempt _), exec_bind]
  split <;> simp_all

theorem settles_conclude (hx : s.registry.records[d.record]? = some x)
    (hs : s.scopeOf x.provider = .ok scope) (contained : Contained r)
    (reportable : s.Reportable x.provider r) :
    s.Settles ((conclude d x.provider false r).exec s).2 d x scope r := by
  have answer := responds hx hs contained reportable
  obtain ⟨update, shown, due, still, y, hy, same⟩ := delivers_response rfl answer.record
  obtain ⟨finish, closed, kind, announced, z, hz, same'⟩ :=
    announces_end (p := x.provider) (failure? ((deliver d x.provider false r).exec s).1) hy
  rw [session_conclude]
  refine ⟨⟨z, hz, ?_⟩, update, finish, ?_, fun n => (due n).trans (answer.due n), kind, fun none => ?_⟩
  · rw [same', same, Counters.receive, isNews_eq]
    split <;> simp_all
  · rw [closed, shown, answer.proceedings]
    simp
  · exact announced scope ((still none).symm ▸ answer.readable)

end Dispatch

namespace Session
variable {s : Session} {d : Dispatch} {t : TaskId} {x : Record Nat} {scope : Scope}
  {r : Except Failure Value}

/-- A dispatch whose task is not asked to end is settled once the answer of its provider is there: the
answer is received if it is newer than all before, whatever it is, and an update is emitted exactly if
one is due, which the surface is asked about last and only where its answer can matter. The end is
announced, also if the surface fails to answer. -/
theorem dispatch_settles (hx : s.registry.records[d.record]? = some x)
    (hs : s.scopeOf x.provider = .ok scope) (uncancelled : ¬ s.IsCancelling t)
    (contained : Contained r) (reportable : s.Reportable x.provider r) :
    s.Settles ((follow d x.provider t (.answered r)).run s).2 d x scope r := by
  let cancelling := ((s.loop.tasks[t]?).map Task.cancelling).getD false
  have calm : cancelling = false := by
    rw [Bool.eq_false_iff]
    intro asked
    obtain ⟨y, hy, hc⟩ : ∃ y, s.loop.tasks[t]? = some y ∧ y.cancelling = true := by
      cases hy : s.loop.tasks[t]? with
      | none => simp [cancelling, hy] at asked
      | some y => exact ⟨y, rfl, by simpa [cancelling, hy] using asked⟩
    exact uncancelled ⟨y, hy, hc⟩
  have concluded : s.Settles ((conclude d x.provider cancelling r).exec s).2 d x scope r :=
    calm ▸ settles_conclude hx hs contained reportable
  exact ⟨concluded.received, concluded.proceedings⟩

/-- The one provider of a sample has been asked, and then something was done. -/
def sampleAwaiting (trouble : Action) : Session :=
  (sample []).opening.run (.act (.add "p" false) :: sampleLint ++ [.act trouble])

def sampleDispatch : Dispatch where
  round := 0
  record := 0
  generation := 1
  context := { surface := "s", onChange := .bool false, filePath := .str "/a", buffer := .bool false }

/-- The dispatch of a sample can be settled by any contained answer. -/
theorem exists_sampleRecord (trouble : Action)
    (asked : ((sampleAwaiting trouble).registry.records[0]?.any fun x =>
      x.provider == "p" && x.counters.lastReceived == 0) = true)
    (readable : (match (sampleAwaiting trouble).scopeOf "p" with
      | .ok .file => true
      | _ => false) = true)
    (calm : (sampleAwaiting trouble).loop.tasks.all (fun x => !x.cancelling) = true) :
    ∃ x, (sampleAwaiting trouble).registry.records[sampleDispatch.record]? = some x ∧
      x.provider = "p" ∧ x.counters.lastReceived < sampleDispatch.generation ∧
      (sampleAwaiting trouble).scopeOf x.provider = .ok .file ∧
      ¬ (sampleAwaiting trouble).IsCancelling 1 := by
  obtain ⟨x, hx, here⟩ := (Option.any_eq_true _ _).mp asked
  obtain ⟨provider, received⟩ : x.provider = "p" ∧ x.counters.lastReceived = 0 := by simpa using here
  refine ⟨x, hx, provider, ?_, ?_, ?_⟩
  · rw [received]
    decide
  · rw [provider]
    split at readable
    · assumption
    · cases readable
  · rintro ⟨y, hy, cancelling⟩
    have all := Array.all_eq_true_iff_forall_mem.mp calm y (Array.mem_of_getElem? hy)
    simp [cancelling] at all

/-- A dispatch for a surface that is there is settled by a list. -/
theorem sample_settles :
    let s := sampleAwaiting .pass
    let r : Except Failure Value := .ok (.list [.int 1])
    ∃ x, s.registry.records[sampleDispatch.record]? = some x ∧ s.scopeOf x.provider = .ok .file ∧
      ¬ s.IsCancelling 1 ∧ Contained r ∧ s.Reportable x.provider r ∧
      s.Settles ((follow sampleDispatch x.provider 1 (.answered r)).run s).2
        sampleDispatch x .file r := by
  intro s r
  obtain ⟨x, hx, _, _, hs, uncancelled⟩ := exists_sampleRecord .pass (by decide +kernel)
    (by decide +kernel) (by decide +kernel)
  have contained : Contained r := contained_ok _
  have reportable : s.Reportable x.provider r := .inl ⟨_, _, rfl, rfl⟩
  exact ⟨x, hx, hs, uncancelled, contained, reportable,
    dispatch_settles hx hs uncancelled contained reportable⟩

/-- An answer that is no list is not received if its provider has lost its name. -/
theorem sample_unnamed_unsettled :
    let s := sampleAwaiting (.deleteAttribute "p" "name")
    let r : Except Failure Value := .ok (.int 5)
    ∃ x, s.registry.records[sampleDispatch.record]? = some x ∧
      x.counters.lastReceived < sampleDispatch.generation ∧ s.scopeOf x.provider = .ok .file ∧
      ¬ s.IsCancelling 1 ∧ Contained r ∧
      ¬ s.Settles ((follow sampleDispatch x.provider 1 (.answered r)).run s).2
        sampleDispatch x .file r := by
  intro s r
  obtain ⟨x, hx, provider, newer, hs, uncancelled⟩ :=
    exists_sampleRecord (.deleteAttribute "p" "name") (by decide +kernel) (by decide +kernel)
      (by decide +kernel)
  refine ⟨x, hx, newer, hs, uncancelled, contained_ok _, fun settles => ?_⟩
  obtain ⟨y, hy, received⟩ := settles.received
  rw [if_pos newer] at received
  rw [provider] at hy
  have unreceived : (((follow sampleDispatch "p" 1 (.answered r)).run s).2.registry.records[
      sampleDispatch.record]?.all fun y => y.counters.lastReceived == 0) = true := by decide +kernel
  rw [hy] at unreceived
  have none : y.counters.lastReceived = 0 := by simpa using unreceived
  rw [none] at received
  cases received

end Session
end LintBroker

import LintBroker.Proofs.Isolation
import LintBroker.Proofs.Renewal

/-!
# A renewed provider changes nothing

Sessions that differ in a renewed provider take the same turns. Registering the provider comes to
the same in both, since here it is found to follow the legacy contract, there the current one, and
it keeps the one exactly if it keeps the other. Listeners and replies do in the one session what
they do in the other, but for the provider's contract and its trigger fields.
-/
namespace LintBroker
open Session Act

namespace Action
variable {p : ProviderId}

mutual

/-- Actions that are not about the provider stay what they are. -/
theorem renewed_of_free : ∀ a : Action, (∀ q ∈ a.subjects, q ≠ p) → a.renewed p = a
  | .add q legacy, free => by simp [renewed, free q (by simp [subjects])]
  | .setAttribute q name v, free => by simp [renewed, free q (by simp [subjects])]
  | .batch actions, free => by
    rw [subjects] at free
    rw [renewed, renewedAll_of_free actions free]
  | .remove _, _ | .has _, _ | .recordOf _, _ | .recordFields _, _ | .openContext .., _
  | .lint .., _ | .resolve .., _ | .fail .., _ | .withdraw .., _ | .cancel _, _ | .subscribe .., _
  | .unsubscribe _, _ | .dispose, _ | .setUp, _ | .setSetting .., _ | .unsetSetting _, _
  | .getSetting _, _ | .setVariable .., _ | .changeSurface .., _ | .deleteAttribute .., _
  | .ignorePath _, _ | .noticePath _, _ | .raise _, _ | .pass, _ => by simp [renewed]

theorem renewedAll_of_free : ∀ actions : List Action, (∀ q ∈ subjectsAll actions, q ≠ p) →
    renewedAll p actions = actions
  | [], _ => by simp [renewedAll]
  | a :: rest, free => by
    rw [subjectsAll, List.forall_mem_append] at free
    rw [renewedAll, renewed_of_free a free.1, renewedAll_of_free rest free.2]

end

end Action

variable {gains b : Bool} {p : ProviderId}

namespace Session
variable {s s' : Session}

/-- The provider and the renewed one are refused in the same words. -/
theorem Renews.duplicateOf (h : s.Renews gains p b s') (q : ProviderId) :
    Broker.duplicateOf s q = Broker.duplicateOf s' q := by
  have akin := h.akin q
  unfold Broker.duplicateOf
  generalize s.attributesOf q = a, s'.attributesOf q = a' at akin
  cases akin with
  | error f => rfl
  | @ok a a' akin =>
    have named := akin.read (n := "name") (by decide)
    simp only [Except.bind, bind, named]

/-- Registering a provider that follows the legacy contract, and the renewed one. -/
theorem Renews.addProvider (h : s.Renews gains p b s') {legacy : Bool}
    (old : ∀ a, s.attributesOf p = .ok a → Contract.of a legacy = .ok .legacy) :
    ((Broker.addProvider p legacy).exec s).1 = ((Broker.addProvider p false).exec s').1 ∧
      ((Broker.addProvider p legacy).exec s).2.Renews gains p b
        ((Broker.addProvider p false).exec s').2 := by
  have refused (f : Failure) : ((.error f : Except Failure Unit), s).1 = (.error f, s').1 ∧
      s.Renews gains p b s' := ⟨rfl, h⟩
  cases usable : s.registry.disposed with
  | true =>
    rw [Broker.exec_addProvider_disposed usable,
      Broker.exec_addProvider_disposed (h.registry.disposed ▸ usable)]
    exact refused _
  | false =>
    have usable' : s'.registry.disposed = false := h.registry.disposed ▸ usable
    by_cases new : p ∈ s.registry.providers
    · rw [Broker.exec_addProvider_listed usable new, h.duplicateOf,
        Broker.exec_addProvider_listed usable' (h.registry.providers ▸ new)]
      exact refused _
    · have new' : p ∉ s'.registry.providers := h.registry.providers ▸ new
      have own := h.ownAttributes
      generalize ha : s.attributesOf p = r, ha' : s'.attributesOf p = r' at own
      cases own with
      | error f =>
        rw [Broker.exec_addProvider_missing usable new ha,
          Broker.exec_addProvider_missing usable' new' ha']
        exact refused f
      | @ok a a' renews =>
        cases valid : a.validate .legacy with
        | error f =>
          rw [Broker.exec_addProvider_invalid usable new ha (old a ha) valid,
            Broker.exec_addProvider_invalid usable' new' ha' renews.contract (renews.validate ▸ valid)]
          exact refused f
        | ok _ =>
          obtain ⟨name, hn, made⟩ := Broker.exec_addProvider usable new ha (old a ha) valid
          obtain ⟨name', hn', made'⟩ := Broker.exec_addProvider usable' new' ha' renews.contract
            (renews.validate ▸ valid)
          obtain rfl : name = name' := by
            rw [renews.akin.read (n := "name") (by decide), hn'] at hn
            exact (Except.ok.inj hn).symm
          have inserted : (s.onRegistry (·.insert p .legacy)).Renews gains p b
              (s'.onRegistry (·.insert p .current)) :=
            h.onRegistry (h.registry.insert (fun _ => ⟨rfl, rfl⟩) fun other => absurd rfl other)
          have registered := inserted.noted (.same (.registered s.registry.records.size p))
          rw [made, made', ← h.registry.size_records]
          exact ⟨rfl, registered.noted (.line name)⟩

end Session

namespace Act
variable {change change' : Attributes → Except Failure Attributes}

theorem inStep_changeAttributes (h : ∀ a a', a.Renews gains b a' →
      Agree (Attributes.Renews gains b) (change a) (change' a')) :
    InStep (Renews gains p b) (changeAttributes p change).run (changeAttributes p change').run := by
  intro s s' hs
  change ((changeAttributes p change).exec s).1 = ((changeAttributes p change').exec s').1 ∧
    ((changeAttributes p change).exec s).2.Renews gains p b ((changeAttributes p change').exec s').2
  have missing {s : Session} (hx : s.host.providers.get? p = none)
      (change : Attributes → Except Failure Attributes) :
      (changeAttributes p change).exec s = (.error (Setting.missing p), s) := by
    rw [changeAttributes, exec_bind_ok exec_get, exec_bind_error (by rw [hx]; rfl)]
  have row := hs.host.providers p
  cases hx : s.host.providers.get? p with
  | none =>
    rw [hx] at row
    generalize hx' : s'.host.providers.get? p = y at row
    cases row
    rw [missing hx, missing hx']
    exact ⟨rfl, hs⟩
  | some x =>
    rw [hx] at row
    generalize hx' : s'.host.providers.get? p = y at row
    cases row with
    | @some _ x' renews =>
      have changed := h _ _ (renews.own rfl)
      rw [exec_changeAttributes hx, exec_changeAttributes hx']
      generalize change x.attributes = r, change' x'.attributes = r' at changed
      cases changed with
      | error f => exact ⟨rfl, hs⟩
      | @ok a a' own =>
        have rows (q : ProviderId) : Option.Rel (Provider.Renews gains p b q)
            ((s.host.providers.put p { x with attributes := a }).get? q)
            ((s'.host.providers.put p { x' with attributes := a' }).get? q) := by
          rw [Table.get?_put, Table.get?_put]
          split
          · next same =>
            exact .some ⟨renews.replies, fun _ => own, fun other => absurd same.symm other⟩
          · exact hs.host.providers q
        exact ⟨rfl, (hs.onHost { hs.host with providers := rows }).noted (.reshaped own.akin)⟩

mutual

/-- An action that spares the provider's trigger fields does the same with the renewed provider. -/
theorem inStep_renewed (a : Action) (spares : a.Spares gains p) :
    InStep (Renews gains p b) (perform a).run (perform (a.renewed p)).run := by
  by_cases free : ∀ q ∈ a.subjects, q ≠ p
  · rw [Action.renewed_of_free a free]
    exact blind_perform a free
  · cases a with
    | batch actions =>
      rw [Action.Spares] at spares
      rw [Action.renewed, perform, perform]
      exact inStep_bind (inStep_renewedAll actions spares) fun _ => inStep_pure _
    | add q legacy =>
      obtain rfl : q = p := by simpa [Action.subjects] using free
      rw [Action.renewed, if_pos rfl, perform, perform]
      refine inStep_bind (fun s s' h => h.addProvider fun a ha => ?_) fun _ => inStep_pure _
      rcases spares rfl with rfl | none
      · rfl
      · have own := h.ownAttributes
        rw [ha] at own
        generalize s'.attributesOf q = r at own
        cases own with
        | ok renews => exact renews.old.of_lacks (renews.lacks none) legacy
    | setAttribute q name v =>
      obtain rfl : q = p := by simpa [Action.subjects] using free
      rw [Action.renewed, if_pos rfl, perform, perform]
      refine inStep_bind (inStep_changeAttributes fun a a' renews => ?_) fun _ => inStep_pure _
      rcases spares rfl with plain | ⟨rfl, rfl⟩
      · rw [Contract.renamed_of_isPlain plain]
        exact .ok (renews.set plain v)
      · exact .ok (renews.gain v)
    | deleteAttribute q name =>
      obtain rfl : q = p := by simpa [Action.subjects] using free
      simp only [Action.renewed, perform]
      exact inStep_bind (inStep_changeAttributes fun a a' renews => renews.delete (spares rfl))
        fun _ => inStep_pure _
    | _ => exact absurd (by simp [Action.subjects]) free

theorem inStep_renewedAll : ∀ actions : List Action, Action.SpareAll gains p actions →
    InStep (Renews gains p b) (performAll actions).run (performAll (Action.renewedAll p actions)).run
  | [], _ => by
    rw [Action.renewedAll, performAll]
    exact inStep_pure _
  | a :: rest, spares => by
    rw [Action.SpareAll] at spares
    rw [Action.renewedAll, performAll, performAll]
    exact inStep_bind (inStep_attempt (inStep_renewed a spares.1)) fun _ =>
      inStep_bind (inStep_renewedAll rest spares.2) fun _ => inStep_pure _

end

theorem inStep_of_renews {a a' : Action} (h : a.Renews gains p a') :
    InStep (Renews gains p b) (perform a).run (perform a').run :=
  h.2 ▸ inStep_renewed a h.1

/-! ### Emissions -/

theorem inStep_call (handling : Option Failure) (d : Dispatch) (l : ListenerId) (n : Notice) :
    InStep (Renews gains p b) (call handling d l n) (call handling d l n) := by
  refine .bind (blind_note _) fun _ => .bind (blind_note _) fun _ => .get fun s s' h => ?_
  have listeners := h.host.listeners l
  generalize s.host.listeners.get? l = x, s'.host.listeners.get? l = x' at listeners
  cases listeners with
  | none => exact .pure _
  | some alike =>
    refine .get fun s s' h => ?_
    rw [h.host.deliveries]
    have counts (k : Nat) : BlindTo (Renews gains p b)
        (modifyHost fun h => { h with deliveries := h.deliveries.put l k }) :=
      inStep_modify fun _ _ h =>
        { h with host := { h.host with deliveries := congrArg (Table.put · l k) h.host.deliveries } }
    refine .bind (counts _) fun _ => .bind
      (inStep_script (fun _ _ acts => inStep_during _ (inStep_of_renews acts)) (alike _ n) n)
      fun (n', r) => ?_
    dsimp only
    split
    · exact .pure _
    · exact .pure _

theorem inStep_deliverAll {S : Session → Session → Prop}
    {call : ListenerId → Notice → StateM Session (Notice × Except Failure Unit)}
    {report : ListenerId → Failure → StateM Session Unit}
    (calls : ∀ l n, InStep S (call l n) (call l n))
    (reports : ∀ l f, InStep S (report l f) (report l f)) (audience : List ListenerId) (n : Notice) :
    InStep S (deliverAll call report audience n) (deliverAll call report audience n) := by
  induction audience generalizing n with
  | nil => exact .pure _
  | cons l rest ih =>
    refine .bind (calls l n) fun (n', r) => ?_
    cases r with
    | ok _ => exact ih n'
    | error f =>
      dsimp only
      split
      · exact .bind (reports l f) fun _ => ih n'
      · exact .pure _

theorem inStep_emit (handling : Option Failure) (d : Dispatch) (n : Notice) :
    BlindTo (Renews gains p b) (emit handling d n) := by
  refine inStep_bind (blind_note _) fun _ => inStep_get fun s s' h => ?_
  rw [h.registry.bus]
  exact inStep_deliverAll (inStep_call handling d)
    (fun _ _ => .bind (blind_reportFault _ _) fun _ => .pure _) _ n

end Act

instance : Voiced (Renews gains p b) (· = p) where
  emit := Act.inStep_emit

/-- What is done to the one session, and done to the other with the renewed provider. -/
instance : Concerted (Renews gains p b) (· = p) (Action.Renews gains p) where
  perform := Act.inStep_of_renews
  replies {s s'} h q := by
    have row := h.host.providers q
    generalize s.host.providers.get? q = x, s'.host.providers.get? q = x' at row
    cases row with
    | none => exact .none
    | some renews => exact .some renews.replies
  calls h := h.host.calls
  count h q n := h.onHost { h.host with calls := congrArg (Table.put · q n) h.host.calls }
  loop h := h.loop
  onLoop h _ _ alike := h.onLoop alike

/-! ### Runs -/

/-- What a table holds, each value changed along with its key. -/
def Table.mapRows {κ α : Type} (t : Table κ α) (f : κ → α → α) : Table κ α :=
  ⟨t.rows.map fun r => (r.1, f r.1 r.2)⟩

theorem Table.get?_mapRows {κ α : Type} [DecidableEq κ] (t : Table κ α) (f : κ → α → α) (k : κ) :
    (t.mapRows f).get? k = (t.get? k).map (f k) := by
  unfold Table.mapRows Table.get?
  rw [List.find?_map, Option.map_map, Option.map_map]
  show Option.map _ (t.rows.find? fun r => decide (r.1 = k)) = _
  cases hr : t.rows.find? fun r => decide (r.1 = k) with
  | none => rfl
  | some r =>
    obtain rfl : r.1 = k := by simpa using List.find?_some hr
    rfl

/-- Attributes with the trigger field of the legacy contract alone, and the same with that of the
current contract alone. -/
structure Attributes.IsRenewal (b : Bool) (a a' : Attributes) : Prop where
  akin : a.Akin a'
  old : a.Triggers .legacy b
  lacks : a.Lacks .current
  new : a'.Triggers .current b
  lacks' : a'.Lacks .legacy

/-- Whether an entry tells of something other than a line or what a provider's attributes have
become. -/
def Entry.isFact : Entry → Bool
  | .debug _ | .trace _ | .reshaped .. => false
  | _ => true

theorem Attributes.triggers_set {a : Attributes} {c : Contract} {b : Bool}
    (readable : a.failures.get? c.trigger = none) : (a.set c.trigger (.bool b)).Triggers c b := by
  unfold Triggers read? lookUp
  have failures : (a.set c.trigger (.bool b)).failures = a.failures := rfl
  rw [failures, readable, set, Table.get?_put, if_pos rfl]

/-- Two providers that have nothing but the one trigger field or the other. -/
theorem Attributes.IsRenewal.of_set {a : Attributes} {b : Bool} (lacks : ∀ c, a.Lacks c)
    (readable : ∀ c : Contract, a.failures.get? c.trigger = none) :
    (a.set Contract.legacy.trigger (.bool b)).IsRenewal b
      (a.set Contract.current.trigger (.bool b)) where
  akin := by
    refine ⟨rfl, rfl, fun n plain => ?_, fun _ _ => rfl, fun _ _ => rfl⟩
    rw [set, set, Table.get?_put, Table.get?_put, if_neg (plain .legacy).symm,
      if_neg (plain .current).symm]
  old := triggers_set (readable .legacy)
  lacks := (read?_set_of_ne (by decide)).trans (lacks .current)
  new := triggers_set (readable .current)
  lacks' := (read?_set_of_ne (by decide)).trans (lacks .legacy)

namespace Session
variable {s s' : Session} {a a' : Attributes}

def Move.renewed (p : ProviderId) : Move → Move
  | .act a => .act (a.renewed p)
  | .tick => .tick

/-- The move leaves the provider what it has of trigger fields, or registers it while it has no more
than that of the legacy contract. -/
def Move.Spares (gains : Bool) (p : ProviderId) (s : Session) : Move → Prop
  | .act a => a.Spares gains p ∨
      a = .add p false ∧ ∀ x, s.attributesOf p = .ok x → x.Lacks .current
  | .tick => True

def renewed (s : Session) (p : ProviderId) (a' : Attributes) : Session :=
  s.onHost fun h => { h with
    providers := h.providers.mapRows fun q x =>
      { attributes := if q = p then a' else x.attributes, reply := fun n => (x.reply n).renewed p }
    listeners := h.listeners.mapRows fun _ x => { script := fun k n => (x.script k n).renewed p } }

/-- The replies of providers and the scripts of listeners leave the provider what it has of trigger
fields. -/
structure Sparing (gains : Bool) (p : ProviderId) (s : Session) : Prop where
  replies : ∀ q x, s.host.providers.get? q = some x →
    ∀ n, (x.reply n).Does (Action.Spares gains p)
  scripts : ∀ l x, s.host.listeners.get? l = some x →
    ∀ k n, (x.script k n).Does (Action.Spares gains p)

theorem renews_opening (sparing : s.Sparing gains p) (ha : s.attributesOf p = .ok a)
    (renewal : a.IsRenewal b a') : s.opening.Renews gains p b (s.renewed p a').opening where
  host := by
    refine ⟨rfl, fun q => ?_, fun l => ?_, rfl, rfl, rfl⟩
    · show Option.Rel _ (s.host.providers.get? q) ((s.host.providers.mapRows _).get? q)
      rw [Table.get?_mapRows]
      cases hx : s.host.providers.get? q with
      | none => exact .none
      | some x =>
        refine .some ⟨fun n => (sparing.replies q x hx n).alike, fun own => ?_, fun other => ?_⟩
        · subst q
          obtain rfl : x.attributes = a := by simpa [attributesOf, hx] using ha
          show x.attributes.Renews gains b (if p = p then a' else x.attributes)
          rw [if_pos rfl]
          exact ⟨renewal.akin, renewal.old, renewal.new, ⟨_, renewal.lacks'⟩, fun _ => renewal.lacks⟩
        · show x.attributes = if q = p then a' else x.attributes
          rw [if_neg other]
    · show Option.Rel _ (s.host.listeners.get? l) ((s.host.listeners.mapRows _).get? l)
      rw [Table.get?_mapRows]
      cases hx : s.host.listeners.get? l with
      | none => exact .none
      | some x => exact .some fun k n => (sparing.scripts l x hx k n).alike
  source := rfl
  template := rfl
  settings := rfl
  registry := ⟨fun _ => .none, rfl, rfl, rfl⟩
  loop := ⟨rfl, fun _ => .none, fun _ => .none⟩
  history := .nil

namespace Renews

/-- A call on the one session, and the same call on the other with the renewed provider. -/
theorem perform (h : s.Renews gains p b s') {a : Action} (spares : (Move.act a).Spares gains p s) :
    (s.perform a).1 = (s'.perform (a.renewed p)).1 ∧
      (s.perform a).2.Renews gains p b (s'.perform (a.renewed p)).2 := by
  rcases spares with spares | ⟨rfl, lacks⟩
  · exact Act.inStep_renewed a spares s s' h
  · have old : ∀ a, s.attributesOf p = .ok a → Contract.of a false = .ok .legacy := by
      intro a ha
      have own := h.ownAttributes
      rw [ha] at own
      generalize s'.attributesOf p = r at own
      cases own with
      | ok renews => exact renews.old.of_lacks (lacks a ha) false
    have added := h.addProvider old
    have same : Action.renewed p (.add p false) = .add p false := by simp [Action.renewed]
    have performs (s : Session) : s.perform (.add p false) =
        (Act.nothing (Broker.addProvider p false)).exec s := by
      show (Act.perform (.add p false)).exec s = _
      rw [Act.perform]
    rw [same, performs, performs, Act.nothing, Act.exec_bind, Act.exec_bind]
    rcases hx : (Broker.addProvider p false).exec s with ⟨r, u⟩
    rcases hy : (Broker.addProvider p false).exec s' with ⟨r', u'⟩
    rw [hx, hy] at added
    obtain ⟨rfl, renews⟩ := added
    cases r <;> exact ⟨rfl, renews⟩

theorem move (h : s.Renews gains p b s') {m : Move} (spares : m.Spares gains p s) :
    (s.move m).Renews gains p b (s'.move (m.renewed p)) := by
  cases m with
  | tick => exact related_tick h
  | act a => exact (h.perform spares).2

theorem run {moves : List Move} (h : s.Renews gains p b s')
    (spares : ∀ before m after, moves = before ++ m :: after → m.Spares gains p (s.run before)) :
    (s.run moves).Renews gains p b (s'.run (moves.map (Move.renewed p))) := by
  induction moves generalizing s s' with
  | nil => exact h
  | cons m moves ih =>
    refine ih (h.move (spares [] m moves rfl)) fun before n after split => ?_
    exact spares (m :: before) n after (by rw [split]; rfl)

end Renews

/-- Two sessions are the same to their hosts, but for the contract that the provider's records have:
the legacy one here and the current one there, for good. Through them the same is read of whether
the provider runs while the user types. -/
structure SameButContract (gains : Bool) (p : ProviderId) (b : Bool) (s s' : Session) : Prop where
  calls : ∀ a, (Move.act a).Spares gains p s → (s.perform a).1 = (s'.perform (a.renewed p)).1
  results : ∀ t, s.resultOf t = s'.resultOf t
  facts : s.history.filter Entry.isFact = s'.history.filter Entry.isFact
  lines : List.Forall₂ (Entry.Renews p) s.history s'.history
  records : ∀ id : RecordId,
    Option.Rel (Record.Renews p) s.registry.records[id]? s'.registry.records[id]?
  active : s.registry.active = s'.registry.active
  reads : ∀ (id : RecordId) (x x' : Record Nat), s.registry.records[id]? = some x →
    s'.registry.records[id]? = some x' → x.provider = p →
      (s.attributesOf p).bind (·.lintsOnChange x.contract) = .ok b ∧
        (s'.attributesOf p).bind (·.lintsOnChange x'.contract) = .ok b

theorem Renews.facts (h : s.Renews gains p b s') :
    s.history.filter Entry.isFact = s'.history.filter Entry.isFact := by
  have history := h.history
  generalize s.history = J, s'.history = J' at history
  induction history with
  | nil => rfl
  | cons renews _ ih =>
    cases renews with
    | same e =>
      rw [List.filter_cons, List.filter_cons, ih]
    | reshaped _ => exact ih
    | line _ => exact ih

/-- Whatever is done, a record keeps the contract with which it was made. -/
def ContractsStay (s : Session) : Prop :=
  ∀ (moves : List Move) (id : RecordId) (x : Record Nat), s.registry.records[id]? = some x →
    ∃ y, (s.run moves).registry.records[id]? = some y ∧ y.provider = x.provider ∧
      y.contract = x.contract

theorem contractsStay_run (s : Session) (moves : List Move) : (s.opening.run moves).ContractsStay := by
  intro more id x hx
  have path := (comes_run (s.coherent_run moves) (s.comes_opening moves).idle more).path
  obtain ⟨y, hy, becomes⟩ := path.record hx
  exact ⟨y, hy, becomes.provider, becomes.contract⟩

theorem Renews.same (h : s.Renews gains p b s') (there : ∃ a, s.attributesOf p = .ok a) :
    s.SameButContract gains p b s' where
  calls _ spares := (h.perform spares).1
  results := resultOf_alike h.loop
  facts := h.facts
  lines := h.history
  records := h.registry.records
  active := h.registry.active
  reads id x x' hx hx' hp := by
    have renews := h.registry.records id
    rw [hx, hx'] at renews
    have own := h.ownAttributes
    obtain ⟨a, ha⟩ := there
    rw [ha] at own ⊢
    generalize s'.attributesOf p = r at own ⊢
    cases renews with
    | some renews =>
      cases own with
      | ok own =>
        obtain ⟨old, new⟩ := renews.own hp
        rw [old, new]
        exact ⟨own.old.lintsOnChange, own.new.lintsOnChange⟩

/-- A provider that has the trigger field of the legacy contract alone may be replaced by the
renewed one: nothing that is done comes to anything else, and nothing else happens, but that the
records of the provider have another contract. They keep it, whatever trigger fields the provider
gains. -/
theorem renewal_unnoticed {moves : List Move} (sparing : s.Sparing gains p)
    (ha : s.attributesOf p = .ok a) (renewal : a.IsRenewal b a')
    (spares : ∀ before m after, moves = before ++ m :: after →
      m.Spares gains p (s.opening.run before)) :
    (s.opening.run moves).SameButContract gains p b
        ((s.renewed p a').opening.run (moves.map (Move.renewed p))) ∧
      (s.opening.run moves).ContractsStay ∧
        ((s.renewed p a').opening.run (moves.map (Move.renewed p))).ContractsStay := by
  have renews := (renews_opening sparing ha renewal).run spares
  have there := (s.comes_opening moves).path.attributesOf (P := fun r => ∃ a, r = .ok a)
    rfl ⟨a, ha⟩ fun a _ => ⟨a, rfl⟩
  exact ⟨renews.same there, contractsStay_run s moves, contractsStay_run _ _⟩

/-- The attributes that the provider of a sample has apart from its trigger field. -/
def plainAttributes : Attributes :=
  { own := .ofList [("name", .str "p"), ("scope", .str "file"),
      ("grammar_scopes", .list [.str "*"])] }

/-- A sample that lints while the user types, with a provider of the legacy contract that gains the
field of the current one when it begins for the first time. -/
def legacySample : Session :=
  let s := sample [.setAttribute "p" "lints_on_change" (.bool false)]
  { s with
    source := .given fun item => .ok (.bool (item == "lint_on_fly"))
    host := { s.host with
      providers := .ofList [("p", {
        attributes := plainAttributes.set "lint_on_fly" (.bool true)
        reply := fun _ => .request Reply.settle })] } }

theorem legacySample_sparing : legacySample.Sparing true "p" where
  replies q x hx n := by
    obtain ⟨-, rfl⟩ : "p" = q ∧ _ = x := by simpa [legacySample, Table.ofList] using hx
    exact fun r => by cases r <;> trivial
  scripts l x hx k n := by
    obtain ⟨-, rfl⟩ : "c" = l ∧ _ = x := by simpa [legacySample, sample, Table.ofList] using hx
    exact ⟨fun _ => .inr ⟨rfl, rfl⟩, fun r => by cases r <;> trivial⟩

/-- A lint of the surface of a sample while the user types. -/
def typedLint : List Move :=
  .act (.lint (.surface "s" (.bool true)) none) :: List.replicate 4 .tick

/-- The provider of a sample is added, and the surface is linted twice. -/
def legacyMoves : List Move := .act (.add "p" false) :: (typedLint ++ typedLint)

theorem legacyMoves_spare : ∀ before m after, legacyMoves = before ++ m :: after →
    m.Spares true "p" (legacySample.opening.run before) := by
  intro before m after split
  cases before with
  | nil =>
    obtain ⟨rfl, -⟩ := List.cons.inj split
    refine .inr ⟨rfl, fun x hx => ?_⟩
    obtain rfl := Except.ok.inj hx
    show (plainAttributes.set "lint_on_fly" (.bool true)).Lacks .current
    exact Attributes.read?_set_of_ne (by decide)
  | cons first before =>
    have later : m ∈ typedLint ++ typedLint := (List.cons.inj split).2 ▸ by simp
    simp only [typedLint, List.mem_append, List.mem_cons, List.mem_replicate, or_self] at later
    obtain rfl | ⟨-, rfl⟩ := later
    · exact .inl trivial
    · trivial

/-- The provider goes on to run while the user types, although the field that it gained says that it
does not; and so does the renewed one. -/
theorem legacySample_renewal_unnoticed :
    (legacySample.opening.run legacyMoves).beginnings "p" = [(0, 0, 1), (2, 0, 2)] ∧
      (legacySample.opening.run legacyMoves).SameButContract true "p" true
        ((legacySample.renewed "p" (plainAttributes.set "lints_on_change" (.bool true))).opening.run
          (legacyMoves.map (Move.renewed "p"))) := by
  refine ⟨by decide +kernel, (renewal_unnoticed legacySample_sparing
    (a := plainAttributes.set "lint_on_fly" (.bool true)) rfl ?_ legacyMoves_spare).1⟩
  exact .of_set (fun c => by cases c <;> rfl) (fun c => by cases c <;> rfl)

end Session
end LintBroker

import LintBroker.Proofs.Actions
import LintBroker.Proofs.Concert
import LintBroker.Proofs.Roster

/-!
# Providers of the legacy contract renewed

A provider that has the trigger field of the legacy contract alone is renewed by giving it the
trigger field of the current contract instead, with the same value, and by registering it without
saying that it is legacy. Two sessions that differ in a renewed provider do the same, whatever is
done to both: the records of the provider have one contract here and the other there, and what is
read through them of whether the provider runs while the user types is the same.

Once the provider is registered it may also gain the trigger field that it lacks. That changes
nothing, as long as it is not registered anew without saying that it is legacy.
-/
namespace LintBroker

/-! ### Attributes -/

/-- A trigger field becomes that of the other contract; other fields keep their names. -/
def Contract.renamed (name : String) : String :=
  if name = legacy.trigger then current.trigger
  else if name = current.trigger then legacy.trigger
  else name

theorem Contract.renamed_of_isPlain {name : String} (h : Attributes.IsPlain name) :
    renamed name = name := by
  rw [renamed, if_neg (h .legacy), if_neg (h .current)]

namespace Attributes
variable {a a' : Attributes} {b gains : Bool} {name : String} {v : Value}

/-- The trigger field of a contract is there and has this value. -/
def Triggers (a : Attributes) (c : Contract) (b : Bool) : Prop :=
  a.read? c.trigger = .ok (some (.value (.bool b)))

/-- There is no trigger field of a contract. -/
def Lacks (a : Attributes) (c : Contract) : Prop := a.read? c.trigger = .ok none

/-- The attributes of a provider and of the renewed one. Unless the provider may gain the trigger
field of the current contract, it lacks that field. -/
structure Renews (gains b : Bool) (a a' : Attributes) : Prop where
  akin : a.Akin a'
  old : a.Triggers .legacy b
  new : a'.Triggers .current b
  spare : ∃ r, a'.read? Contract.legacy.trigger = .ok r
  lacks : gains = false → a.Lacks .current

theorem Triggers.read {c : Contract} (h : a.Triggers c b) : a.read c.trigger = .ok (.bool b) := by
  unfold Triggers Attributes.read? at h
  unfold Attributes.read
  split at h
  · next x hx =>
    rw [hx]
    rw [Option.some.inj (Except.ok.inj h)]
    rfl
  · split at h <;> cases h

theorem Triggers.lintsOnChange {c : Contract} (h : a.Triggers c b) : a.lintsOnChange c = .ok b := by
  rw [Attributes.lintsOnChange, h.read]
  rfl

/-- A provider with the legacy field alone follows the legacy contract, whether or not that is said.
-/
theorem Triggers.of_lacks (h : a.Triggers .legacy b) (lacks : a.Lacks .current) (forced : Bool) :
    Contract.of a forced = .ok .legacy := by
  cases forced with
  | true => rfl
  | false =>
    unfold Contract.of
    rw [show a.read? Contract.legacy.trigger = _ from h,
      show a.read? Contract.current.trigger = _ from lacks]
    rfl

namespace Renews

/-- The renewed provider follows the current contract. -/
theorem contract (h : a.Renews gains b a') : Contract.of a' false = .ok .current := by
  obtain ⟨r, hr⟩ := h.spare
  unfold Contract.of
  rw [hr, show a'.read? Contract.current.trigger = _ from h.new]
  cases r <;> rfl

/-- Both keep their contracts, or break them in the same ways. -/
theorem validate (h : a.Renews gains b a') : a.validate .legacy = a'.validate .current := by
  have breaches : a.breaches .legacy = a'.breaches .current := by
    unfold Attributes.breaches
    rw [show a.read? Contract.legacy.trigger = _ from h.old,
      show a'.read? Contract.current.trigger = _ from h.new, h.akin.read? (n := "name") (by decide),
      h.akin.read? (n := "scope") (by decide), h.akin.read? (n := "grammar_scopes") (by decide),
      h.akin.read? (n := "lint") (by decide)]
    rfl
  unfold Attributes.validate
  rw [breaches, h.akin.read? (n := "name") (by decide), h.akin.className]

end Renews

/-- How an attribute reads depends on the provider's own value of it alone. -/
theorem read?_withOwn {own : Table String Value} (h : own.get? name = a.own.get? name) :
    ({ a with own } : Attributes).read? name = a.read? name := by
  simp only [read?, lookUp, h]

theorem read?_set_of_ne {n : String} (h : n ≠ name) : (a.set n v).read? name = a.read? name :=
  read?_withOwn (by rw [Table.get?_put, if_neg h])

theorem Renews.set (h : a.Renews gains b a') (plain : IsPlain name) (v : Value) :
    (a.set name v).Renews gains b (a'.set name v) where
  akin := h.akin.set name v
  old := (read?_set_of_ne (plain .legacy)).trans h.old
  new := (read?_set_of_ne (plain .current)).trans h.new
  spare := h.spare.imp fun _ hr => (read?_set_of_ne (plain .legacy)).trans hr
  lacks none := (read?_set_of_ne (plain .current)).trans (h.lacks none)

/-- An attribute that is deleted is one that is read in the same way from both. -/
theorem Renews.delete (h : a.Renews gains b a') (plain : IsPlain name) :
    Agree (Renews gains b) (a.delete name) (a'.delete name) := by
  have has : a.own.has name = a'.own.has name := by rw [Table.has, Table.has, h.akin.own name plain]
  have other (a : Attributes) {n : String} (hn : name ≠ n) :
      ({ a with own := a.own.erase name } : Attributes).read? n = a.read? n :=
    read?_withOwn (by rw [Table.get?_erase, if_neg hn])
  unfold Attributes.delete
  rw [has]
  split
  · have own (n : String) (hn : IsPlain n) :
        (a.own.erase name).get? n = (a'.own.erase name).get? n := by
      rw [Table.get?_erase, Table.get?_erase, h.akin.own n hn]
    exact .ok ⟨⟨h.akin.className, h.akin.hasLint, own, h.akin.defaults, h.akin.failures⟩,
      (other a (plain .legacy)).trans h.old, (other a' (plain .current)).trans h.new,
      h.spare.imp fun _ hr => (other a' (plain .legacy)).trans hr,
      fun none => (other a (plain .current)).trans (h.lacks none)⟩
  · rw [h.akin.className]
    exact .error _

/-- The provider gains the field that it lacks. -/
theorem Renews.gain (h : a.Renews true b a') (v : Value) :
    (a.set Contract.current.trigger v).Renews true b (a'.set Contract.legacy.trigger v) where
  akin := by
    refine ⟨h.akin.className, h.akin.hasLint, fun n plain => ?_, h.akin.defaults, h.akin.failures⟩
    rw [Attributes.set, Attributes.set, Table.get?_put, Table.get?_put, if_neg (plain .current).symm,
      if_neg (plain .legacy).symm]
    exact h.akin.own n plain
  old := (read?_set_of_ne (by decide)).trans h.old
  new := (read?_set_of_ne (by decide)).trans h.new
  spare := by
    obtain ⟨r, hr⟩ := h.spare
    unfold read? lookUp at hr ⊢
    cases hf : a'.failures.get? Contract.legacy.trigger with
    | some f =>
      rw [hf] at hr
      exact ⟨r, by simpa [Attributes.set, hf] using hr⟩
    | none => exact ⟨_, by simp [Attributes.set, hf]; rfl⟩
  lacks := nofun

end Attributes

/-! ### Actions -/

mutual

/-- The action on the renewed provider: it is not said to be legacy, and a trigger field is that of
the other contract. -/
def Action.renewed (p : ProviderId) : Action → Action
  | .add q legacy => .add q (if q = p then false else legacy)
  | .setAttribute q name v => .setAttribute q (if q = p then Contract.renamed name else name) v
  | .batch actions => .batch (Action.renewedAll p actions)
  | a => a

def Action.renewedAll (p : ProviderId) : List Action → List Action
  | [] => []
  | a :: rest => a.renewed p :: Action.renewedAll p rest

end

mutual

/-- The action leaves the provider what it has of trigger fields. If the provider may gain the field
that it lacks, the action may do that, but does not register it without saying that it is legacy. -/
def Action.Spares (gains : Bool) (p : ProviderId) : Action → Prop
  | .add q legacy => q = p → legacy = true ∨ gains = false
  | .setAttribute q name _ => q = p →
      Attributes.IsPlain name ∨ gains = true ∧ name = Contract.current.trigger
  | .deleteAttribute q name => q = p → Attributes.IsPlain name
  | .batch actions => Action.SpareAll gains p actions
  | _ => True

def Action.SpareAll (gains : Bool) (p : ProviderId) : List Action → Prop
  | [] => True
  | a :: rest => a.Spares gains p ∧ Action.SpareAll gains p rest

end

/-- An action, and the same on the renewed provider. -/
def Action.Renews (gains : Bool) (p : ProviderId) (a b : Action) : Prop :=
  a.Spares gains p ∧ b = a.renewed p

/-- Every action that a reply may come to is of some kind. -/
def Reply.Does (F : Action → Prop) : Reply → Prop
  | .value _ | .fail _ => True
  | .act a next => F a ∧ ∀ r, (next r).Does F
  | .pause next => ∀ r, (next r).Does F
  | .request next => ∀ r, (next r).Does F

/-- Every action that a script may come to is of some kind. -/
def Script.Does (F : Action → Prop) : Script Action Result → Prop
  | .done | .fail _ => True
  | .act a next => F a ∧ ∀ r, (next r).Does F
  | .append _ next => ∀ r, (next r).Does F

def Reply.renewed (p : ProviderId) : Reply → Reply
  | .value v => .value v
  | .fail f => .fail f
  | .act a next => .act (a.renewed p) fun r => (next r).renewed p
  | .pause next => .pause fun r => (next r).renewed p
  | .request next => .request fun r => (next r).renewed p

def Script.renewed (p : ProviderId) : Script Action Result → Script Action Result
  | .done => .done
  | .fail f => .fail f
  | .act a next => .act (a.renewed p) fun r => (next r).renewed p
  | .append v next => .append v fun r => (next r).renewed p

section alike
variable {gains : Bool} {p : ProviderId}

theorem Reply.Does.alike {reply : Reply} (h : reply.Does (Action.Spares gains p)) :
    reply.Alike (Action.Renews gains p) (reply.renewed p) := by
  induction reply with
  | value v => exact .value v
  | fail f => exact .fail f
  | act a next ih => exact .act ⟨h.1, rfl⟩ fun r => ih r (h.2 r)
  | pause next ih => exact .pause fun r => ih r (h r)
  | request next ih => exact .request fun r => ih r (h r)

theorem Script.Does.alike {c : Script Action Result} (h : c.Does (Action.Spares gains p)) :
    c.Alike (Action.Renews gains p) (c.renewed p) := by
  induction c with
  | done => exact .done
  | fail f => exact .fail f
  | act a next ih => exact .act ⟨h.1, rfl⟩ fun r => ih r (h.2 r)
  | append v next ih => exact .append v fun r => ih r (h r)

end alike

/-! ### Records and registries -/

/-- Records that differ in the contract if they are the provider's. -/
structure Record.Renews (p : ProviderId) (x x' : Record Nat) : Prop where
  provider : x.provider = x'.provider
  activated : x.activated = x'.activated
  counters : x.counters = x'.counters
  own : x.provider = p → x.contract = .legacy ∧ x'.contract = .current
  others : x.provider ≠ p → x.contract = x'.contract

/-- Registries that differ in the contracts of the provider. -/
structure Registry.Renews (p : ProviderId) (r r' : Registry) : Prop where
  records : ∀ id : RecordId, Option.Rel (Record.Renews p) r.records[id]? r'.records[id]?
  active : r.active = r'.active
  disposed : r.disposed = r'.disposed
  bus : r.bus = r'.bus

namespace Registry.Renews
variable {p q : ProviderId} {r r' : Registry} (h : r.Renews p r')
include h

theorem size_records : r.records.size = r'.records.size := Array.size_eq_of_rel h.records

theorem find? (q : ProviderId) : r.find? q = r'.find? q := by
  rw [Registry.find?, Registry.find?, h.active]

theorem providers : r.providers = r'.providers := congrArg Table.keys h.active

theorem rel_map {f : Record Nat → Record Nat}
    (hf : ∀ x x', Record.Renews p x x' → Record.Renews p (f x) (f x')) (id : RecordId) :
    Option.Rel (Record.Renews p) (r.records[id]?.map f) (r'.records[id]?.map f) := by
  have hx := h.records id
  generalize r.records[id]? = x, r'.records[id]? = x' at hx
  cases hx with
  | none => exact .none
  | some renews => exact .some (hf _ _ renews)

theorem changeRecord (id : RecordId) {f : Record Nat → Record Nat}
    (hf : ∀ x x', Record.Renews p x x' → Record.Renews p (f x) (f x')) :
    (r.changeRecord id f).Renews p (r'.changeRecord id f) := by
  refine ⟨fun i => ?_, h.active, h.disposed, h.bus⟩
  rw [getElem?_changeRecord, getElem?_changeRecord]
  split
  · exact h.rel_map hf i
  · exact h.records i

theorem insert {c c' : Contract} (own : q = p → c = .legacy ∧ c' = .current)
    (others : q ≠ p → c = c') : (r.insert q c).Renews p (r'.insert q c') := by
  refine ⟨fun i => ?_, ?_, h.disposed, h.bus⟩
  · rw [getElem?_insert, getElem?_insert, h.size_records]
    split
    · exact .some ⟨rfl, rfl, rfl, own, others⟩
    · exact h.records i
  · rw [Registry.insert, Registry.insert, h.active, h.size_records]

/-- Registries to which the same is done stay so. -/
theorem deed {f : Registry → Registry} (hf : Deed (· = p) f) : (f r).Renews p (f r') := by
  have deactivate (x x' : Record Nat) (hx : Record.Renews p x x') :
      Record.Renews p x.deactivate x'.deactivate := { hx with activated := rfl }
  cases hf with
  | insert hq c => exact h.insert (fun hp => absurd hp hq) fun _ => rfl
  | remove q =>
    show (r.remove q).Renews p (r'.remove q)
    unfold Registry.remove
    rw [h.find?]
    split
    · exact { h.changeRecord _ deactivate with active := by rw [h.active] }
    · exact h
  | dispose =>
    refine ⟨fun i => ?_, rfl, rfl, rfl⟩
    rw [getElem?_dispose, getElem?_dispose, h.active]
    split
    · exact h.rel_map deactivate i
    · exact h.records i
  | count id f => exact h.changeRecord id fun _ _ hx => { hx with counters := by rw [hx.counters] }
  | subscribe x => exact { h with bus := congrArg (Bus.subscribe · x) h.bus }
  | unsubscribe x => exact { h with bus := congrArg (Bus.unsubscribe · x) h.bus }

end Registry.Renews

/-! ### Sessions -/

/-- Entries that tell the same, but for the contract and the trigger fields of the provider. -/
inductive Entry.Renews (p : ProviderId) : Entry → Entry → Prop
  | same (e : Entry) : Renews p e e
  | reshaped {a a' : Attributes} (akin : a.Akin a') : Renews p (.reshaped p a) (.reshaped p a')
  | line (name : Value) : Renews p (.debug (Broker.registrationLine name .legacy))
      (.debug (Broker.registrationLine name .current))

/-- Providers of which the one may be renewed. -/
structure Provider.Renews (gains : Bool) (p : ProviderId) (b : Bool) (q : ProviderId)
    (x x' : Provider) : Prop where
  replies : ∀ n, (x.reply n).Alike (Action.Renews gains p) (x'.reply n)
  own : q = p → x.attributes.Renews gains b x'.attributes
  others : q ≠ p → x.attributes = x'.attributes

/-- Hosts that differ in a renewed provider, and act on it accordingly. -/
structure Host.Renews (gains : Bool) (p : ProviderId) (b : Bool) (h h' : Host) : Prop where
  furniture : h.furniture = h'.furniture
  providers : ∀ q, Option.Rel (Provider.Renews gains p b q) (h.providers.get? q) (h'.providers.get? q)
  listeners : ∀ l, Option.Rel
    (fun x x' => ∀ k n, (x.script k n).Alike (Action.Renews gains p) (x'.script k n))
    (h.listeners.get? l) (h'.listeners.get? l)
  matcher : h.matcher = h'.matcher
  calls : h.calls = h'.calls
  deliveries : h.deliveries = h'.deliveries

namespace Session

/-- Sessions that differ in a renewed provider. -/
structure Renews (gains : Bool) (p : ProviderId) (b : Bool) (s s' : Session) : Prop where
  host : s.host.Renews gains p b s'.host
  source : s.source = s'.source
  template : s.template = s'.template
  settings : s.settings = s'.settings
  registry : s.registry.Renews p s'.registry
  loop : s.loop.Plays (Action.Renews gains p) s'.loop
  history : List.Forall₂ (Entry.Renews p) s.history s'.history

variable {gains b : Bool} {p q : ProviderId} {s s' : Session}

namespace Renews
variable (h : s.Renews gains p b s')
include h

theorem onHost {f f' : Host → Host} (renews : (f s.host).Renews gains p b (f' s'.host)) :
    (s.onHost f).Renews gains p b (s'.onHost f') := { h with host := renews }

theorem onRegistry {f f' : Registry → Registry} (renews : (f s.registry).Renews p (f' s'.registry)) :
    (s.onRegistry f).Renews gains p b (s'.onRegistry f') := { h with registry := renews }

theorem onLoop {f f' : Loop → Loop}
    (alike : (f s.loop).Plays (Action.Renews gains p) (f' s'.loop)) :
    (s.onLoop f).Renews gains p b (s'.onLoop f') := { h with loop := alike }

theorem noted {e e' : Entry} (renews : e.Renews p e') : (s.noted e).Renews gains p b (s'.noted e') := by
  refine { h with history := ?_ }
  rw [history_noted, history_noted]
  exact List.rel_append h.history (.cons renews .nil)

theorem attributesOf (hq : q ≠ p) : s.attributesOf q = s'.attributesOf q := by
  have hx := h.host.providers q
  rw [Session.attributesOf, Session.attributesOf]
  generalize s.host.providers.get? q = x, s'.host.providers.get? q = x' at hx
  cases hx with
  | none => rfl
  | some renews => exact congrArg Except.ok (renews.others hq)

/-- The attributes of the provider, and of the renewed one. -/
theorem ownAttributes : Agree (Attributes.Renews gains b) (s.attributesOf p) (s'.attributesOf p) := by
  have hx := h.host.providers p
  rw [Session.attributesOf, Session.attributesOf]
  generalize s.host.providers.get? p = x, s'.host.providers.get? p = x' at hx
  cases hx with
  | none => exact .error _
  | some renews => exact .ok (renews.own rfl)

theorem akin (q : ProviderId) : Agree Attributes.Akin (s.attributesOf q) (s'.attributesOf q) := by
  by_cases hq : q = p
  · subst hq
    have own := h.ownAttributes
    generalize s.attributesOf q = a, s'.attributesOf q = a' at own
    cases own with
    | ok renews => exact .ok renews.akin
    | error f => exact .error f
  · exact .of_eq Attributes.Akin.refl (h.attributesOf hq)

end Renews

theorem akin_of_renews {x x' : Record Nat} (h : Record.Renews p x x') :
    Record.Akin (Renews gains p b) x x' := by
  refine ⟨h.provider, h.activated, h.counters, fun s s' hs => ?_⟩
  by_cases hp : x.provider = p
  · obtain ⟨old, new⟩ := h.own hp
    have own := hs.ownAttributes
    rw [hp, old, new]
    generalize s.attributesOf p = a, s'.attributesOf p = a' at own
    cases own with
    | ok renews => exact renews.old.lintsOnChange.trans renews.new.lintsOnChange.symm
    | error f => rfl
  · rw [hs.attributesOf hp, h.others hp]

instance : Likeness (Renews gains p b) (· = p) where
  source h := h.source
  template h := h.template
  settings h := h.settings
  records {s s'} h id := by
    have hx := h.registry.records id
    generalize s.registry.records[id]? = x, s'.registry.records[id]? = x' at hx
    cases hx with
    | none => exact .none
    | some renews => exact .some (akin_of_renews renews)
  active h := h.registry.active
  disposed h := h.registry.disposed
  bus h := .inl h.registry.bus
  furniture h := h.host.furniture
  matcher h := h.host.matcher
  attributesOf h _ hq := h.attributesOf hq
  akin h q := h.akin q
  told h := h.loop.told
  noted h e := h.noted (.same e)
  withSettings h _ := { h with settings := rfl }
  onRegistry h _ hf := h.onRegistry (h.registry.deed hf)
  refurnish h f := h.onHost { h.host with furniture := congrArg f h.host.furniture }
  reshape h q x x' hq hx hx' a := by
    refine h.onHost { h.host with providers := fun i => ?_ }
    rw [Table.get?_put, Table.get?_put]
    have hi := h.host.providers q
    rw [hx, hx'] at hi
    cases hi with
    | some renews =>
      split
      · subst i
        exact .some ⟨renews.replies, fun hp => absurd hp hq, fun _ => rfl⟩
      · exact h.host.providers i
  spawn h name job := h.onLoop (h.loop.spawn name job)
  cancel h t := h.onLoop (h.loop.cancel t)
  settle h r _ := h.onLoop (h.loop.settle r fun _ _ => rfl)

end Session
end LintBroker

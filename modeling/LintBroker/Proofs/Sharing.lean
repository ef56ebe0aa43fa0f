import LintBroker.Proofs.Transcripts

/-!
# Services are built once and shared

Whatever is registered, reset, updated and asked for in whatever order, and whatever the classes ask
for while their services are being built: a hub answers with the service that it keeps, and builds
one only while it keeps none. The one assumption is that no class asks for the very service that is
being built.

A yard is *sound* if its tables are what its past tells and each request of the past was dealt with
as it had to be. Every computation on a yard adds to its past and keeps it sound.
-/
namespace LintBroker.Service

variable {C : Type} [Catalogue C]

/-- A class whose services are set up as registries are. -/
def SetsUpRegistry (c : C) : Prop :=
  ∃ label, ∀ past hub b, b.kind = c → Catalogue.setUp past hub b = .setUpRegistry label hub b

/-- A routine may return a value, if its calls go in some way. -/
inductive Routine.MayReturn {α : Type} : Routine C α → α → Prop
  | done (a : α) : MayReturn (.done a) a
  | say {line : String} {next : Routine C α} {a : α} (h : next.MayReturn a) :
      MayReturn (.say line next) a
  | call {c : Call C} {next : Except Failure (Option BuiltId) → Routine C α} {a : α}
      (r : Except Failure (Option BuiltId)) (h : (next r).MayReturn a) : MayReturn (.call c next) a

/-- A service holds what its class made for a hub, after all that had happened: the class constructed
it from its arguments and then set it up. -/
def Built.OfClass (b : Built C) (P : List (Event C)) (h : String) : Prop :=
  ∃ template made later, (Catalogue.construct template P h b.kind b.args).MayReturn made ∧
    (Catalogue.setUp later h { made with kind := b.kind, args := b.args }).MayReturn b.toContent

/-- A service was built for the request that comes last in a past, by the class and from the arguments
with which its building was begun. If it is a registry that was given no settings, then it uses those
that its hub was asked for and answered with. -/
def BuiltFor (built : Array (Built C)) (P : List (Event C)) (h n : String) (id : BuiltId) : Prop :=
  ∃ A K b, P = A ++ .asked h n :: .building h n b.kind b.args :: K ∧ (∀ r, .answered h n r ∉ K) ∧
    built[id]? = some b ∧ b.OfClass (A ++ [.asked h n, .building h n b.kind b.args]) h ∧
    (SetsUpRegistry b.kind → b.args.nameSettings = false →
      ∃ i, b.settings = some i ∧ .answered h "config" (.ok i) ∈ P)

/-- An answer is the service that is kept, or, if there is none, may be one that was built for it. -/
structure Proper (built : Array (Built C)) (P : List (Event C)) (h n : String)
    (r : Except Failure BuiltId) : Prop where
  kept : ∀ id, keptIn P h n = some id → r = .ok id
  made : ∀ id, keptIn P h n = none → r = .ok id → BuiltFor built P h n id

/-- What happened is told properly: each request is followed by the reply to it, answers are proper,
and no service is shared between hubs or names. -/
structure Told (built : Array (Built C)) (P : List (Event C)) : Prop where
  replied : ∀ A h n e B, P = A ++ .asked h n :: e :: B → e = replyTo A h n
  proper : ∀ A h n r B, P = A ++ .answered h n r :: B → Proper built A h n r
  separate : ∀ h n h' n' id, .answered h n (.ok id) ∈ P → .answered h' n' (.ok id) ∈ P →
    h = h' ∧ n = n'
  bounded : ∀ h n id, .answered h n (.ok id) ∈ P → id < built.size

/-- No request is left without its reply. -/
def Replied (P : List (Event C)) : Prop := ∀ A h n, P ≠ A ++ [.asked h n]

/-! ### One more event -/

section told
variable {built built' : Array (Built C)} {P A B : List (Event C)} {h n : String}

omit [Catalogue C] in
theorem mem_of_keptIn {id : BuiltId} (kept : keptIn P h n = some id) : .answered h n (.ok id) ∈ P := by
  obtain ⟨e, he, hid⟩ := List.mem_filterMap.mp (List.mem_of_getLast? kept)
  exact eq_of_success? hid ▸ he

theorem BuiltFor.mono (grows : ∀ (id : Nat) b, built[id]? = some b → built'[id]? = some b)
    {id : BuiltId} (hb : BuiltFor built P h n id) : BuiltFor built' P h n id := by
  obtain ⟨A, K, b, hP, unanswered, hid, uses⟩ := hb
  exact ⟨A, K, b, hP, unanswered, grows id b hid, uses⟩

theorem Told.mono (grows : ∀ (id : Nat) b, built[id]? = some b → built'[id]? = some b)
    (ht : Told built P) : Told built' P where
  replied := ht.replied
  separate := ht.separate
  bounded h n id hid := by
    have := grows id _ (Array.getElem?_eq_getElem (ht.bounded h n id hid))
    exact (Array.getElem?_eq_some_iff.mp this).1
  proper A h n r B hP :=
    ⟨(ht.proper A h n r B hP).kept,
      fun id none hr => ((ht.proper A h n r B hP).made id none hr).mono grows⟩

theorem told_nil : Told built ([] : List (Event C)) where
  replied A h n e B hP := by simp at hP
  proper A h n r B hP := by simp at hP
  separate _ _ _ _ _ hP := absurd hP List.not_mem_nil
  bounded _ _ _ hP := absurd hP List.not_mem_nil

/-- What may be taken down next: the reply to a request that has none, and a proper answer, whose
service is nobody else's. -/
theorem Told.concat (ht : Told built P) {e : Event C}
    (reply : ∀ A g m, P = A ++ [.asked g m] → e = replyTo A g m)
    (proper : ∀ h n r, e = .answered h n r → Proper built P h n r)
    (own : ∀ h n id, e = .answered h n (.ok id) → id < built.size ∧
      ∀ g m, .answered g m (.ok id) ∈ P → g = h ∧ m = n) : Told built (P ++ [e]) where
  replied A h n e' B hP := by
    obtain ⟨-, -, hB⟩ | ⟨B', hB, rfl⟩ := concat_eq_append_cons.mp hP
    · cases hB
    · cases B' with
      | nil =>
        obtain ⟨rfl, -⟩ := List.cons.inj hB
        exact reply A h n rfl
      | cons x B' =>
        obtain ⟨rfl, -⟩ := List.cons.inj hB
        exact ht.replied A h n _ B' rfl
  proper A h n r B hP := by
    obtain ⟨rfl, he, rfl⟩ | ⟨B', rfl, rfl⟩ := concat_eq_append_cons.mp hP
    · exact proper h n r he
    · exact ht.proper A h n r B' rfl
  separate h n h' n' id hP hP' := by
    rw [List.mem_append, List.mem_singleton] at hP hP'
    rcases hP with hP | he <;> rcases hP' with hP' | he'
    · exact ht.separate h n h' n' id hP hP'
    · exact (own h' n' id he'.symm).2 h n hP
    · obtain ⟨rfl, rfl⟩ := (own h n id he.symm).2 h' n' hP'
      exact ⟨rfl, rfl⟩
    · cases he.trans he'.symm
      exact ⟨rfl, rfl⟩
  bounded h n id hP := by
    rw [List.mem_append, List.mem_singleton] at hP
    rcases hP with hP | he
    · exact ht.bounded h n id hP
    · exact (own h n id he.symm).1

theorem Told.of_append (ht : Told built (P ++ A)) : Told built P where
  replied B h n e D hP := ht.replied B h n e (D ++ A) (by simp [hP])
  proper B h n r D hP := ht.proper B h n r (D ++ A) (by simp [hP])
  separate h n h' n' id hP hP' :=
    ht.separate h n h' n' id (List.mem_append_left _ hP) (List.mem_append_left _ hP')
  bounded h n id hP := ht.bounded h n id (List.mem_append_left _ hP)

/-- Whatever a request was answered with is still kept. -/
theorem Told.keptIn_of_mem (ht : Told built P) {id : BuiltId} (hid : .answered h n (.ok id) ∈ P) :
    keptIn P h n = some id := by
  induction P using List.reverseRecOn with
  | nil => exact absurd hid List.not_mem_nil
  | append_singleton P e ih =>
    rw [List.mem_append, List.mem_singleton] at hid
    rcases hid with old | rfl
    · have kept := ih ht.of_append old
      rw [keptIn_concat]
      cases he : e.success? h n with
      | none => rw [Option.none_or, kept]
      | some id' =>
        have proper := (ht.proper P h n (.ok id') [] (by rw [eq_of_success? he])).kept id kept
        rw [Except.ok.inj proper, Option.some_or]
    · exact keptIn_answered P h n id

theorem Replied.reply (hP : Replied P) (e : Event C) (A : List (Event C)) (g m : String)
    (h : P = A ++ [.asked g m]) : e = replyTo A g m := absurd h (hP A g m)

omit [Catalogue C] in
theorem replied_concat {e : Event C} (he : e.asks? = none) : Replied (P ++ [e]) := by
  intro A h n hA
  obtain ⟨-, he'⟩ := List.append_inj' hA rfl
  rw [List.singleton_inj.mp he'] at he
  cases he

end told

/-! ### Sound yards -/

namespace Yard

/-- The tables of a yard are what its past tells. -/
structure Tabled (y : Yard C) : Prop where
  kinds : ∀ n, y.kinds.get? n = classIn y.history n
  arguments : ∀ h n, ((y.hub h).arguments.get? n).getD ∅ = .ofList (givenIn y.history h n)
  kept : ∀ h n, (y.hub h).kept.get? n = keptIn y.history h n

/-- A yard whose past is told properly and whose tables are what it tells. -/
structure Sound (y : Yard C) : Prop where
  tabled : y.Tabled
  told : Told y.built y.history
  replied : Replied y.history

/-- A yard after one more event that is done to its tables. -/
structure Follows (y : Yard C) (e : Event C) (y' : Yard C) : Prop where
  history : y'.history = y.history ++ [e]
  kinds : ∀ n, y'.kinds.get? n = e.registration n (y.kinds.get? n)
  arguments : ∀ h n, ((y'.hub h).arguments.get? n).getD ∅ =
    Arguments.merge (((y.hub h).arguments.get? n).getD ∅) ⟨e.given h n⟩
  kept : ∀ h n, (y'.hub h).kept.get? n = (e.success? h n).or ((y.hub h).kept.get? n)

variable {y y' : Yard C} {e : Event C}

theorem Tabled.follow (ht : y.Tabled) (hf : y.Follows e y') : y'.Tabled where
  kinds n := by rw [hf.kinds, hf.history, classIn_concat, ht.kinds]
  arguments h n := by
    rw [hf.arguments, hf.history, givenIn_concat, ht.arguments, Arguments.merge, Table.ofList,
      Table.ofList, List.foldl_append]
  kept h n := by rw [hf.kept, hf.history, keptIn_concat, ht.kept]

theorem follows_register (y : Yard C) (n : String) (c : C) :
    y.Follows (.registered n c) ({ y with kinds := y.kinds.put n c }.noted (.registered n c)) where
  history := history_noted _ _
  kinds m := Table.get?_put y.kinds n m c
  arguments _ _ := rfl
  kept _ _ := rfl

theorem follows_reset (y : Yard C) :
    y.Follows .reset ({ y with kinds := Catalogue.defaults }.noted .reset) where
  history := history_noted _ _
  kinds _ := rfl
  arguments _ _ := rfl
  kept _ _ := rfl

theorem follows_update (y : Yard C) (h n : String) (args : Arguments) :
    y.Follows (.updated h n args) ((y.onHub h fun g =>
      { g with arguments := g.arguments.put n (((g.arguments.get? n).getD ∅).merge args) }).noted
        (.updated h n args)) where
  history := history_noted _ _
  kinds _ := rfl
  arguments g m := by
    rw [hub_noted, hub_onHub]
    by_cases hg : h = g <;> by_cases hm : n = m <;> simp [Event.given, hg, hm, Arguments.merge]
  kept g m := by
    rw [hub_noted, hub_onHub]
    split <;> rfl

theorem follows_noted (y : Yard C) (e : Event C) (kinds : ∀ n c, e.registration n c = c)
    (given : ∀ h n, e.given h n = [])
    (kept : ∀ h n, (e.success? h n).or ((y.hub h).kept.get? n) = (y.hub h).kept.get? n) :
    y.Follows e (y.noted e) where
  history := history_noted _ _
  kinds n := (kinds n _).symm
  arguments h n := by
    rw [given]
    rfl
  kept h n := (kept h n).symm

theorem follows_keeping (y : Yard C) (h n : String) (b : Built C) :
    y.Follows (.answered h n (.ok y.built.size))
      ((y.keeping h n b).noted (.answered h n (.ok y.built.size))) where
  history := history_noted _ _
  kinds _ := rfl
  arguments g m := by
    rw [hub_noted, keeping, hub_onHub]
    split <;> rfl
  kept g m := by
    rw [hub_noted, keeping, hub_onHub]
    by_cases hg : h = g <;> by_cases hm : n = m <;> simp [Event.success?, hg, hm, hub]

/-- An event that is neither a request nor an answer. -/
theorem Sound.follow (hs : y.Sound) (hf : y.Follows e y') (built : y'.built = y.built)
    (unasked : e.asks? = none) (silent : ∀ h n r, e ≠ .answered h n r) : y'.Sound where
  tabled := hs.tabled.follow hf
  told := by
    rw [built, hf.history]
    exact hs.told.concat (hs.replied.reply _) (fun h n r he => absurd he (silent h n r))
      fun h n id he => absurd he (silent h n _)
  replied := hf.history ▸ replied_concat unasked

/-- An answer to a request while no service is kept. -/
theorem Sound.answer (hs : y.Sound) {h n : String} {r : Except Failure BuiltId}
    (hf : y.Follows (.answered h n r) y') (none : keptIn y.history h n = none)
    (grows : ∀ (id : Nat) b, y.built[id]? = some b → y'.built[id]? = some b)
    (made : ∀ id, r = .ok id → y.built.size ≤ id ∧ BuiltFor y'.built y.history h n id) :
    y'.Sound where
  tabled := hs.tabled.follow hf
  told := by
    rw [hf.history]
    refine (hs.told.mono grows).concat (hs.replied.reply _) (fun g m q he => ?_) fun g m id he => ?_
    · cases he
      exact ⟨fun id some => by simp [none] at some, fun id _ hr => (made id hr).2⟩
    · cases he
      obtain ⟨new, A, K, b, -, -, hid, -⟩ := made id rfl
      refine ⟨(Array.getElem?_eq_some_iff.mp hid).1, fun g' m' old => ?_⟩
      exact absurd (hs.told.bounded g' m' id old) (Nat.not_lt.mpr new)
  replied := hf.history ▸ replied_concat rfl

theorem Tabled.follows_reply (ht : y.Tabled) (h n : String) :
    (y.noted (.asked h n)).Follows (replyTo y.history h n)
      ((y.noted (.asked h n)).noted (replyTo y.history h n)) := by
  have kept := ht.kept h n
  unfold replyTo
  cases hk : keptIn y.history h n with
  | some id =>
    refine follows_noted _ _ (fun _ _ => rfl) (fun _ _ => rfl) fun g m => ?_
    rw [hk] at kept
    by_cases same : h = g ∧ n = m
    · obtain ⟨rfl, rfl⟩ := same
      simp [Event.success?, kept]
    · simp [Event.success?, same]
  | none =>
    cases classIn y.history n with
    | some c => exact follows_noted _ _ (fun _ _ => rfl) (fun _ _ => rfl) fun _ _ => rfl
    | none => exact follows_noted _ _ (fun _ _ => rfl) (fun _ _ => rfl) fun _ _ => rfl

theorem proper_reply {built : Array (Built C)} {P : List (Event C)} {h n g m : String}
    {r : Except Failure BuiltId} (hr : replyTo P h n = .answered g m r) :
    g = h ∧ m = n ∧ Proper built (P ++ [.asked h n]) h n r ∧
      ∀ id, r = .ok id → keptIn P h n = some id := by
  unfold replyTo at hr
  cases hk : keptIn P h n with
  | some id =>
    rw [hk] at hr
    cases hr
    refine ⟨rfl, rfl, ⟨fun id' hid => ?_, fun id' none => ?_⟩, fun _ hid => by cases hid; rfl⟩
    · rw [keptIn_concat_of_none rfl, hk] at hid
      rw [Option.some.inj hid]
    · rw [keptIn_concat_of_none rfl, hk] at none
      cases none
  | none =>
    rw [hk] at hr
    cases hc : classIn P n with
    | some c =>
      rw [hc] at hr
      cases hr
    | none =>
      rw [hc] at hr
      cases hr
      refine ⟨rfl, rfl, ⟨fun id some => ?_, fun id _ hr => by cases hr⟩, fun _ hid => by cases hid⟩
      rw [keptIn_concat_of_none rfl, hk] at some
      cases some

theorem of_replyTo_eq_building {P : List (Event C)} {h n : String} {c : C} {args : Arguments}
    (hr : replyTo P h n = .building h n c args) :
    classIn P n = some c ∧ args = .ofList (givenIn P h n) := by
  unfold replyTo at hr
  split at hr <;> cases hr
  exact ⟨‹_›, rfl⟩

theorem replyTo_unasked (P : List (Event C)) (h n : String) : (replyTo P h n).asks? = none := by
  unfold replyTo
  cases keptIn P h n with
  | some id => rfl
  | none => cases classIn P n <;> rfl

/-- A request together with the reply to it. -/
theorem Sound.request (hs : y.Sound) (h n : String) :
    ((y.noted (.asked h n)).noted (replyTo y.history h n)).Sound where
  tabled := (hs.tabled.follow (follows_noted y (.asked h n) (fun _ _ => rfl) (fun _ _ => rfl)
    fun _ _ => rfl)).follow (hs.tabled.follows_reply h n)
  told := by
    have asked : Told y.built (y.history ++ [.asked h n]) :=
      hs.told.concat (hs.replied.reply _) (fun _ _ _ he => by cases he) fun _ _ _ he => by cases he
    rw [history_noted, history_noted]
    refine asked.concat (fun A g m hA => ?_) (fun g m r hr => ?_) fun g m id hr => ?_
    · obtain ⟨rfl, he⟩ := List.append_inj' hA rfl
      cases he
      rfl
    · obtain ⟨rfl, rfl, proper, -⟩ := proper_reply hr
      exact proper
    · obtain ⟨rfl, rfl, (- : Proper y.built _ _ _ _), kept⟩ := proper_reply hr
      have old := mem_of_keptIn (kept id rfl)
      refine ⟨hs.told.bounded g m id old, fun g' m' other => ?_⟩
      rw [List.mem_append, List.mem_singleton] at other
      exact hs.told.separate g' m' g m id (other.resolve_right fun he => by cases he) old
  replied := by
    rw [history_noted]
    exact replied_concat (replyTo_unasked y.history h n)

/-- In a sound yard every request has its reply. -/
theorem Sound.exists_reply (hs : y.Sound) {A B : List (Event C)} {h n : String}
    (hB : y.history = A ++ .asked h n :: B) : ∃ B', B = replyTo A h n :: B' := by
  cases B with
  | nil => exact absurd hB (hs.replied A h n)
  | cons e B => exact ⟨B, by rw [hs.told.replied A h n e B hB]⟩

/-- A service that was answered first was built by the class and from the arguments of its request. -/
theorem Sound.exists_made (hs : y.Sound) {A B : List (Event C)} {h n : String} {id : BuiltId}
    (hB : y.history = A ++ .answered h n (.ok id) :: B) (first : ∀ i, .answered h n (.ok i) ∉ A) :
    ∃ A' K b, y.built[id]? = some b ∧
      A = A' ++ .asked h n :: .building h n b.kind b.args :: K ∧ (∀ r, .answered h n r ∉ K) ∧
      classIn A' n = some b.kind ∧ b.args = .ofList (givenIn A' h n) ∧
      b.OfClass (A' ++ [.asked h n, .building h n b.kind b.args]) h ∧
      (SetsUpRegistry b.kind → b.args.nameSettings = false →
        ∃ i, b.settings = some i ∧ .answered h "config" (.ok i) ∈ A) := by
  have none : keptIn A h n = none := by
    cases hk : keptIn A h n with
    | none => rfl
    | some i => exact absurd (mem_of_keptIn hk) (first i)
  obtain ⟨A', K, b, rfl, unanswered, hid, ofClass, registry⟩ :=
    (hs.told.proper A h n _ B hB).made id none rfl
  have reply := hs.told.replied A' h n (.building h n b.kind b.args)
    (K ++ .answered h n (.ok id) :: B) (by simp [hB])
  obtain ⟨hc, ha⟩ := of_replyTo_eq_building reply.symm
  exact ⟨A', K, b, hid, rfl, unanswered, hc, ha, ofClass, registry⟩

/-! ### What computations keep -/

/-- Debug lines are nobody's business. -/
theorem Sound.said (hs : y.Sound) (line : String) : (y.said line).Sound where
  tabled := ⟨hs.tabled.kinds, hs.tabled.arguments, hs.tabled.kept⟩
  told := hs.told
  replied := hs.replied

/-- A yard later on: more has happened and more has been built, and it is still sound unless a class
asked for the service that was being built. -/
structure Grows (y y' : Yard C) : Prop where
  events : ∃ K, y'.history = y.history ++ K ∧ AsksFirst K
  built : ∀ (id : Nat) b, y.built[id]? = some b → y'.built[id]? = some b
  sound : Grounded [] y'.history → y.Sound → y'.Sound

theorem Grows.refl (y : Yard C) : y.Grows y where
  events := ⟨[], (List.append_nil _).symm, asksFirst_nil⟩
  built _ _ h := h
  sound _ h := h

theorem Grows.trans {y₁ y₂ y₃ : Yard C} (h₁ : y₁.Grows y₂) (h₂ : y₂.Grows y₃) : y₁.Grows y₃ := by
  obtain ⟨K₁, hK₁, asks₁⟩ := h₁.events
  obtain ⟨K₂, hK₂, asks₂⟩ := h₂.events
  refine ⟨⟨K₁ ++ K₂, by rw [hK₂, hK₁, List.append_assoc], asks₁.append asks₂⟩,
    fun id b hb => h₂.built id b (h₁.built id b hb), fun grounded hs => ?_⟩
  refine h₂.sound grounded (h₁.sound ?_ hs)
  rw [hK₂] at grounded
  exact (grounded_append.mp grounded).1

theorem grows_said (y : Yard C) (line : String) : y.Grows (y.said line) where
  events := ⟨[], (List.append_nil _).symm, asksFirst_nil⟩
  built _ _ h := h
  sound _ h := h.said line

/-- A change that is neither a request nor an answer. -/
theorem Follows.grows (hf : y.Follows e y') (built : y'.built = y.built) (unasked : e.asks? = none)
    (silent : ∀ h n r, e ≠ .answered h n r) : y.Grows y' where
  events := ⟨[e], hf.history, asksFirst_nil.concat fun h n r he => absurd he (silent h n r)⟩
  built id b hb := by rwa [built]
  sound _ hs := hs.follow hf built unasked silent

theorem grows_request (h n : String) (e : Event C) (reply : y.Sound → e = replyTo y.history h n)
    (own : ∀ g m r, e = .answered g m r → g = h ∧ m = n) :
    y.Grows ((y.noted (.asked h n)).noted e) where
  events := by
    refine ⟨[.asked h n] ++ [e], by simp, AsksFirst.concat ?_ fun g m r he => ?_⟩
    · exact asksFirst_nil.concat fun _ _ _ he => by cases he
    · obtain ⟨rfl, rfl⟩ := own g m r he
      exact List.mem_singleton_self _
  built _ _ hb := hb
  sound _ hs := reply hs ▸ hs.request h n

/-- A request of a service that is not kept, after which the service was being built and then was
answered with, or else a failure. -/
theorem grows_answer {y₁ y₂ : Yard C} {h n : String} {c : C} {args : Arguments}
    {r : Except Failure BuiltId} (kept : (y.hub h).kept.get? n = none)
    (begun : y.Sound → .building h n c args = replyTo y.history h n)
    (grown : ((y.noted (.asked h n)).noted (.building h n c args)).Grows y₁)
    (hf : y₁.Follows (.answered h n r) y₂)
    (grows : ∀ (id : Nat) b, y₁.built[id]? = some b → y₂.built[id]? = some b)
    (made : ∀ id, r = .ok id → y₁.built.size ≤ id ∧ ∃ b, y₂.built[id]? = some b ∧ b.kind = c ∧
      b.args = args ∧ b.OfClass (y.history ++ [.asked h n, .building h n c args]) h ∧
      (SetsUpRegistry c → args.nameSettings = false →
        ∃ i, b.settings = some i ∧ .answered h "config" (.ok i) ∈ y₁.history)) : y.Grows y₂ := by
  have opened := grows_request h n (.building h n c args) begun fun g m r he => by cases he
  obtain ⟨K, hK, asks⟩ := grown.events
  have whole := opened.trans grown
  refine ⟨⟨[.asked h n] ++ [.building h n c args] ++ K ++ [.answered h n r], ?_, ?_⟩,
    fun id b hb => grows id b (whole.built id b hb), fun grounded hs => ?_⟩
  · rw [hf.history, hK]
    simp
  · refine AsksFirst.concat (AsksFirst.append (.concat (.concat asksFirst_nil ?_) ?_) asks) ?_
    · exact fun _ _ _ he => by cases he
    · exact fun _ _ _ he => by cases he
    · rintro g m q he
      cases he
      simp
  · rw [hf.history] at grounded
    have before := (grounded_append.mp grounded).1
    have unanswered (q : Except Failure BuiltId) : .answered h n q ∉ K := by
      rw [hK] at before
      refine unanswered_of_grounded asks (grounded_append.mp before).2 ?_ q
      rw [history_noted, List.foldl_append]
      exact List.mem_cons_self
    have none : keptIn y₁.history h n = none := by
      rw [hK, keptIn_append_of_unanswered unanswered, history_noted, history_noted,
        keptIn_concat_of_none rfl, keptIn_concat_of_none rfl, ← hs.tabled.kept, kept]
    refine (whole.sound before hs).answer hf none grows fun id hr => ?_
    obtain ⟨new, b, hb, rfl, rfl, ofClass, registry⟩ := made id hr
    refine ⟨new, y.history, K, b, ?_, unanswered, hb, ofClass, registry⟩
    rw [hK]
    simp

end Yard

namespace Work
open Yard

variable {α : Type}

/-- What is needed of calls: that they keep yards sound, and that whoever gets a service was answered
with it. -/
structure Fair (call : Call C → Work (Option BuiltId) C) : Prop where
  grows : ∀ c (y : Yard C), y.Grows (exec (call c) y).2
  answers : ∀ h n r (y y' : Yard C), exec (call (.get h n)) y = (.ok r, y') →
    ∃ i, r = some i ∧ .answered h n (.ok i) ∈ y'.history

variable {call : Call C → Work (Option BuiltId) C}

theorem Fair.grows_follow (hc : Fair call) (routine : Routine C α) (y : Yard C) :
    y.Grows (exec (follow call routine) y).2 := by
  induction routine generalizing y with
  | done a => exact Grows.refl y
  | fail f => exact Grows.refl y
  | say line next ih =>
    rw [exec_follow_say]
    exact (grows_said y line).trans (ih _)
  | call c next ih =>
    rw [exec_follow_call]
    exact (hc.grows c y).trans (ih _ _)

theorem mayReturn_of_follow {routine : Routine C α} {a : α} {y y' : Yard C}
    (h : exec (follow call routine) y = (.ok a, y')) : routine.MayReturn a := by
  induction routine generalizing y with
  | done b =>
    cases h
    exact .done a
  | fail f => cases h
  | say line next ih =>
    rw [exec_follow_say] at h
    exact .say (ih h)
  | call c next ih =>
    rw [exec_follow_call] at h
    exact .call _ (ih _ h)

theorem Fair.settings_of_setUp (hc : Fair call) {label h : String} {b : Built C} {ready : Content}
    {y y' : Yard C} (unnamed : b.args.nameSettings = false)
    (hr : exec (follow call (.setUpRegistry label h b)) y = (.ok ready, y')) :
    ∃ i, ready.settings = some i ∧ .answered h "config" (.ok i) ∈ y'.history := by
  rw [Routine.setUpRegistry, unnamed, Routine.settingUp, exec_follow_say, if_neg Bool.false_ne_true,
    Routine.useSettings, exec_follow_call] at hr
  rcases hcall : exec (call (.get h "config")) (y.said ("Setting up " ++ label)) with ⟨_ | r, y₁⟩
  · rw [hcall] at hr
    cases hr
  · obtain ⟨i, rfl, answered⟩ := hc.answers h "config" r _ y₁ hcall
    rw [hcall] at hr
    cases hr
    exact ⟨i, rfl, answered⟩

/-- A class builds a service, or fails to, and calls hubs meanwhile. -/
theorem Fair.build_cases (hc : Fair call) {h n : String} {y : Yard C} {c : C} {args : Arguments}
    (hn : y.kinds.get? n = some c) (ha : ((y.hub h).arguments.get? n).getD ∅ = args) :
    (∃ f y', exec (build call h n) y = (.error f, y') ∧ (y.noted (.building h n c args)).Grows y') ∨
    ∃ b y', exec (build call h n) y = (.ok y'.built.size, y'.keeping h n b) ∧
      (y.noted (.building h n c args)).Grows y' ∧ b.kind = c ∧ b.args = args ∧
      b.OfClass (y.history ++ [.building h n c args]) h ∧
      (SetsUpRegistry c → args.nameSettings = false →
        ∃ i, b.settings = some i ∧ .answered h "config" (.ok i) ∈ y'.history) := by
  rw [exec_build call hn ha]
  generalize hconstruct : (Catalogue.construct y.template _ h c args : Routine C Content) = routine
  have constructed := hc.grows_follow routine (y.noted (.building h n c args))
  rcases hmade : exec (follow call routine) (y.noted (.building h n c args)) with ⟨f | made, y₁⟩
  · rw [hmade] at constructed
    exact .inl ⟨f, y₁, rfl, constructed⟩
  · rw [hmade] at constructed
    have described := grows_said y₁
      ("Created " ++ Text.quoted n ++ " service (" ++ Catalogue.label c ++ ")")
    dsimp only
    generalize y₁.said _ = y₂ at described ⊢
    have ready := hc.grows_follow (Catalogue.setUp y₂.history h { made with kind := c, args }) y₂
    have grown := constructed.trans (described.trans ready)
    rcases hready : exec (follow call _) y₂ with ⟨f | x, y₃⟩
    · rw [hready] at grown
      exact .inl ⟨f, y₃, rfl, grown⟩
    · rw [hready] at grown
      refine .inr ⟨{ x with kind := c, args }, y₃, rfl, grown, rfl, rfl, ?_, ?_⟩
      · have returns := mayReturn_of_follow hmade
        rw [← hconstruct, history_noted] at returns
        exact ⟨_, made, _, returns, mayReturn_of_follow hready⟩
      · rintro ⟨label, setUp⟩ unnamed
        rw [setUp _ h _ rfl] at hready
        exact hc.settings_of_setUp unnamed hready

/-- A service that is asked for and is not kept is built, if a class is registered, and the request is
answered. -/
theorem Fair.grows_build (hc : Fair call) {h n : String} {y : Yard C}
    (kept : (y.hub h).kept.get? n = none) {out : Except Failure BuiltId × Yard C}
    (hout : exec (build call h n) (y.noted (.asked h n)) = out) :
    y.Grows (out.2.noted (.answered h n out.1)) := by
  have unkept (hs : y.Sound) : keptIn y.history h n = none := (hs.tabled.kept h n).symm.trans kept
  cases hn : y.kinds.get? n with
  | none =>
    rw [exec_build_of_unknown call (y := y.noted _) hn] at hout
    subst hout
    refine grows_request h n _ (fun hs => ?_) fun g m r hr => by cases hr; exact ⟨rfl, rfl⟩
    rw [replyTo, unkept hs, ← hs.tabled.kinds, hn]
  | some c =>
    have begun (hs : y.Sound) : .building h n c (((y.hub h).arguments.get? n).getD ∅) =
        replyTo y.history h n := by
      rw [replyTo, unkept hs, ← hs.tabled.kinds, hn, hs.tabled.arguments]
    rcases hc.build_cases (y := y.noted (.asked h n)) hn rfl with
      ⟨f, y', hbuild, grown⟩ | ⟨b, y', hbuild, grown, kind, args, ofClass, registry⟩
    · rw [hbuild] at hout
      subst hout
      exact grows_answer kept begun grown (follows_noted y' _ (fun _ _ => rfl) (fun _ _ => rfl)
        fun _ _ => rfl) (fun _ _ hb => hb) fun id hr => by cases hr
    · rw [hbuild] at hout
      subst hout
      refine grows_answer kept begun grown (follows_keeping y' h n b) (fun id b' hb => ?_)
        fun id hr => ?_
      · have old := (Array.getElem?_eq_some_iff.mp hb).1
        change (y'.built.push b)[id]? = _
        rw [Array.getElem?_push, if_neg (Nat.ne_of_lt old), hb]
      · cases hr
        rw [history_noted, List.append_assoc] at ofClass
        exact ⟨Nat.le_refl _, b, Array.getElem?_push_size, kind, args, ofClass, registry⟩

theorem Fair.exec_build_history (hc : Fair call) (h n : String) (y : Yard C) :
    ∃ K, (exec (build call h n) y).2.history = y.history ++ K := by
  cases hn : y.kinds.get? n with
  | none =>
    rw [exec_build_of_unknown call hn]
    exact ⟨[], (List.append_nil _).symm⟩
  | some c =>
    rcases hc.build_cases hn rfl with ⟨f, y', hbuild, grown⟩ | ⟨b, y', hbuild, grown, -⟩
    all_goals
      obtain ⟨K, hK, -⟩ := grown.events
      rw [history_noted, List.append_assoc] at hK
      rw [hbuild]
      exact ⟨_, hK⟩

theorem grows_service {fuel : Nat} (hc : Fair (making (C := C) fuel)) (h n : String) (y : Yard C) :
    y.Grows (exec (service h (fuel + 1) n) y).2 := by
  rw [exec_service]
  cases hk : (y.hub h).kept.get? n with
  | some id =>
    refine grows_request h n _ (fun hs => ?_) fun g m r hr => by cases hr; exact ⟨rfl, rfl⟩
    rw [replyTo, ← hs.tabled.kept, hk]
  | none => exact hc.grows_build hk rfl

theorem exec_service_history {fuel : Nat} (hc : Fair (making (C := C) fuel)) (h n : String)
    (y : Yard C) :
    ∃ K, (exec (service h (fuel + 1) n) y).2.history =
      y.history ++ .asked h n :: K ++ [.answered h n (exec (service h (fuel + 1) n) y).1] := by
  rw [exec_service]
  cases (y.hub h).kept.get? n with
  | some id => exact ⟨[], by simp⟩
  | none =>
    obtain ⟨K, hK⟩ := hc.exec_build_history h n (y.noted (.asked h n))
    refine ⟨K, ?_⟩
    simp only [history_noted, making] at hK ⊢
    rw [hK]
    simp

theorem grows_perform {ask : String → String → Work BuiltId C}
    (hask : ∀ h n (y : Yard C), y.Grows (exec (ask h n) y).2) (c : Call C) (y : Yard C) :
    y.Grows (exec (perform ask c) y).2 := by
  cases c with
  | register n c =>
    rw [perform, exec_bind, exec_register]
    exact (follows_register y n c).grows rfl rfl fun _ _ _ he => by cases he
  | reset =>
    rw [perform, exec_bind, exec_reset]
    exact (follows_reset y).grows rfl rfl fun _ _ _ he => by cases he
  | update h n args =>
    rw [perform, exec_bind, exec_updateArguments]
    exact (follows_update y h n args).grows rfl rfl fun _ _ _ he => by cases he
  | get h n =>
    rw [exec_perform_get]
    exact hask h n y

/-- Calls keep yards sound, however deep services ask for one another. -/
theorem fair_making (fuel : Nat) : Fair (making (C := C) fuel) := by
  induction fuel with
  | zero =>
    refine ⟨grows_perform fun h n y => Grows.refl y, fun h n r y y' hr => ?_⟩
    rw [making, exec_perform_get] at hr
    cases hr
  | succ fuel ih =>
    refine ⟨grows_perform fun h n y => grows_service ih h n y, fun h n r y y' hr => ?_⟩
    obtain ⟨K, hK⟩ := exec_service_history ih h n y
    rw [making, exec_perform_get] at hr
    rcases hout : exec (service h (fuel + 1) n) y with ⟨_ | i, y₁⟩
    · rw [hout] at hr
      cases hr
    · rw [hout] at hr hK
      cases hr
      exact ⟨i, rfl, by simp [hK]⟩

end Work

/-! ### Runs -/

theorem Yard.grows_after (depth : Nat) (y : Yard C) (calls : List (Call C)) :
    y.Grows (y.after depth calls) := by
  induction calls generalizing y with
  | nil => exact Grows.refl y
  | cons c calls ih => exact ((Work.fair_making depth).grows c y).trans (ih _)

theorem Yard.sound_opening (template : Setting.Store) (environment : Setting.Environment) :
    ({ template, environment } : Yard C).Sound where
  tabled := ⟨fun _ => rfl, fun _ _ => rfl, fun _ _ => rfl⟩
  told := told_nil
  replied A h n hA := by simp [history] at hA

/-- What hubs owe to those who ask, where this is what happened in the calls that were made. -/
structure Yard.Shares (depth : Nat) (y : Yard C) (P : List (Event C)) : Prop where
  /-- A request is answered at once with the service that is kept, or with a failure if no class is
  registered; else the service is built, by the class and from the arguments of that moment. -/
  replied : ∀ A h n B, P = A ++ .asked h n :: B → ∃ B', B = replyTo A h n :: B'
  /-- Once a request was answered with a service, all later ones are, and with the same. -/
  same : ∀ A h n r B id, P = A ++ .answered h n r :: B → .answered h n (.ok id) ∈ A → r = .ok id
  /-- So is the next one. -/
  next : ∀ h n id, .answered h n (.ok id) ∈ P → (Work.exec (Work.service h (depth + 1) n) y).1 = .ok id
  /-- The service that is answered first was built for that very request, by the class registered
  when it was made, from the arguments given to its hub until then; of two values of a keyword the
  later counts. It holds what that class made. A registry without settings of its own uses the
  service that its hub is answered with. -/
  made : ∀ A h n id B, P = A ++ .answered h n (.ok id) :: B →
    (∀ i, .answered h n (.ok i) ∉ A) → ∃ A' K b, y.built[id]? = some b ∧
      A = A' ++ .asked h n :: .building h n b.kind b.args :: K ∧ (∀ r, .answered h n r ∉ K) ∧
      classIn A' n = some b.kind ∧
      (∀ k, b.args.get? k = ((givenIn A' h n).reverse.find? fun g => g.1 = k).map Prod.snd) ∧
      b.OfClass (A' ++ [.asked h n, .building h n b.kind b.args]) h ∧
      (SetsUpRegistry b.kind → b.args.nameSettings = false →
        ∃ i, b.settings = some i ∧ .answered h "config" (.ok i) ∈ A)
  /-- What is kept is what requests were answered with; a failure keeps nothing. -/
  kept : ∀ h n id, (y.hub h).kept.get? n = some id ↔ .answered h n (.ok id) ∈ P
  /-- Neither hubs nor names share services. -/
  separate : ∀ h n h' n' id, .answered h n (.ok id) ∈ P → .answered h' n' (.ok id) ∈ P →
    h = h' ∧ n = n'

theorem Yard.Sound.shares {y : Yard C} (hs : y.Sound) (depth : Nat) : y.Shares depth y.history where
  replied _ _ _ _ hB := hs.exists_reply hB
  same A h n r B id hB old := by
    have before : Told y.built A := Told.of_append (hB ▸ hs.told)
    exact (hs.told.proper A h n r B hB).kept id (before.keptIn_of_mem old)
  next h n id old := by
    have kept := (hs.tabled.kept h n).trans (hs.told.keptIn_of_mem old)
    rw [Work.exec_service, kept]
  made A h n id B hB first := by
    obtain ⟨A', K, b, hid, hA, unanswered, hc, ha, made⟩ := hs.exists_made hB first
    exact ⟨A', K, b, hid, hA, unanswered, hc, fun k => by rw [ha, Table.get?_ofList], made⟩
  kept h n id := by
    rw [hs.tabled.kept]
    exact ⟨mem_of_keptIn, hs.told.keptIn_of_mem⟩
  separate := hs.told.separate

/-- Whatever is called in whatever order, and whatever classes call: services are built once and
shared, unless a class asks for the service that is being built. -/
theorem Yard.shares_after (template : Setting.Store) (environment : Setting.Environment) (depth : Nat)
    (calls : List (Call C))
    (grounded : Grounded [] (transcript (depth + 1) { template, environment } calls)) :
    (after (depth + 1) { template, environment } calls).Shares depth
      (transcript (depth + 1) { template, environment } calls) := by
  have told := history_after (depth + 1) ({ template, environment } : Yard C) calls
  rw [show ({ template, environment } : Yard C).history = [] from rfl, List.nil_append] at told
  rw [← told] at grounded ⊢
  exact ((grows_after (depth + 1) _ calls).sound grounded
    (sound_opening template environment)).shares depth

theorem setsUpRegistry_registry : SetsUpRegistry Kind.registry :=
  ⟨Kind.label .registry, fun _ _ b hb => by simp only [Catalogue.setUp, hb]⟩

/-- Two hubs. In the first a probe cannot be set up at first and then can, and stays what it is
after the classes were reset; in the second the registry is asked for before the settings that it
uses. -/
def tryOut : List (Call Kind) :=
  [.register "probe" .failsToSetUp, .get "a" "probe", .update "a" "probe" (.ofList [("level", .int 1)]),
    .register "probe" .recorder, .get "a" "probe", .update "a" "probe" (.ofList [("level", .int 2)]),
    .reset, .get "a" "probe", .get "b" "probe", .get "b" "linter_registry", .get "b" "config",
    .get "a" "linter_registry"]

/-- No class asks for what is being built there: the registry asks for the settings. -/
theorem shares_after_tryOut :
    let opening : Yard Kind := { template := { host := "h" } }
    let last := opening.after (1 + 1) tryOut
    SetsUpRegistry Kind.registry ∧ Grounded [] (opening.transcript (1 + 1) tryOut) ∧
      last.built.toList.map (fun b => b.settings) = [none, none, some 1, none, some 3] ∧
      last.Shares 1 (opening.transcript (1 + 1) tryOut) := by
  intro opening last
  have grounded : Grounded [] (opening.transcript (1 + 1) tryOut) := by decide +kernel
  exact ⟨setsUpRegistry_registry, grounded, by decide +kernel, Yard.shares_after _ _ 1 tryOut grounded⟩

end LintBroker.Service

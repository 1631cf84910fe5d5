import Duplex.Proofs.Accounts

/-!
# Fitting: how slots are filled and emptied

`Fitting` tells what a reset does for one slot: an engine is made if the slot is empty, set up and
configured, and given up when it refuses either. `Update` is the same for new settings. Both keep
the accounts, with the slot's engine on the roster before and after (`Fitting.accounts`,
`Update.accounts`), and both are what a workshop does (`refit_fitting`, `setUp_update`).
-/

namespace Duplex

open Engine

variable {S : Type} {F : Family}

/-- What the journal says of setting an engine up and configuring it, and whether it stays. -/
inductive Trial (stage : Stage) (setUp configure : Request S) (number : Nat) :
    Journal S → Option Nat → Prop where
  | refused :
    Trial stage setUp configure number [.called number setUp false, .released stage number] none
  | rejected :
    Trial stage setUp configure number
      [.called number setUp true, .called number configure false, .released stage number] none
  | passed :
    Trial stage setUp configure number
      [.called number setUp true, .called number configure true] (some number)

/-- What a reset does for a slot that holds an engine or none, when `made` engines of the stage were
made before: the events, and the slot and the number of engines afterwards. -/
inductive Fitting (stage : Stage) (setUp configure : Request S) :
    (slot : Option Nat) → (made : Nat) → Journal S → Option Nat → Nat → Prop where
  | unmade {made : Nat} :
    Fitting stage setUp configure none made [.made stage made false] none made
  | made {made : Nat} {events : Journal S} {slot : Option Nat}
    (h : Trial stage setUp configure made events slot) :
    Fitting stage setUp configure none made (.made stage made true :: events) slot (made + 1)
  | kept {number made : Nat} {events : Journal S} {slot : Option Nat}
    (h : Trial stage setUp configure number events slot) :
    Fitting stage setUp configure (some number) made events slot made

/-- What new settings do for a slot. -/
inductive Update (stage : Stage) (configure : Request S) :
    (slot : Option Nat) → Journal S → Option Nat → Prop where
  | empty : Update stage configure none [] none
  | accepted {number : Nat} :
    Update stage configure (some number) [.called number configure true] (some number)
  | rejected {number : Nat} :
    Update stage configure (some number)
      [.called number configure false, .released stage number] none

/-- The engine in a slot, on a roster. -/
def entry (stage : Stage) (slot : Option Nat) : List EngineId := slot.toList.map (⟨stage, ·⟩)

namespace Event

/-- Whether an event is a failure of the factory or of an engine. -/
def fails : Event S → Bool
  | made _ _ ok => !ok
  | called _ _ ok => !ok
  | _ => false

/-- Whether an event is a call that belongs to a frame. -/
def isFrame : Event S → Bool
  | called _ request _ => request.purpose = .frame
  | _ => false

/-- The stage that an event concerns. -/
def stage? : Event S → Option Stage
  | made stage .. => some stage
  | called _ request _ => some request.stage
  | released stage _ => some stage
  | noticed _ => none

end Event

/-! ### Accounts -/

theorem PerStage.set_get {α : Type} (p : PerStage α) (stage : Stage) :
    p.set (p.get stage) stage = p := by cases stage <;> rfl

section Accounts

variable {stage : Stage} {setUp configure : Request S} {slot slot' : Option Nat}
  {count count' : Nat} {made : PerStage Nat} {journal events : Journal S} {roster : List EngineId}

@[simp] theorem mem_entry {id : EngineId} :
    id ∈ entry stage slot ↔ slot = some id.number ∧ stage = id.stage := by
  cases slot with
  | none => simp [entry]
  | some number =>
    cases id
    simp [entry, eq_comm, and_comm]

theorem length_entry : (entry stage slot).length = slot.toList.length := List.length_map _

variable (hs : setUp.stage = stage) (hc : configure.stage = stage)
  (hsetUp : setUp.purpose = .setUp) (hconfigure : configure.purpose = .configure)

include hs hc

/-- A trial is about one engine. -/
theorem Trial.about {number : Nat} (h : Trial stage setUp configure number events slot) :
    ∀ e ∈ events, e.about = some ⟨stage, number⟩ := by
  cases h <;> simp [Event.about, hs, hc]

include hsetUp hconfigure

/-- An engine that can be set up is ready after the trial, or was given up. -/
theorem Trial.follow {number : Nat} (h : Trial stage setUp configure number events slot) {p : Phase}
    (hp : p = .made ∨ p = .ready) :
    follow ⟨stage, number⟩ p events = some (if slot.isSome then .ready else .released) := by
  obtain rfl | rfl := hp <;>
    cases h <;> simp [Duplex.follow, Phase.next, Event.about, hs, hc, hsetUp, hconfigure]

omit hs hc hsetUp hconfigure in
/-- An engine that stays is the one that was tried. -/
theorem Trial.entry_cases {number : Nat} (h : Trial stage setUp configure number events slot) :
    slot = none ∧ events.created + 1 = events.dropped ∨
      slot = some number ∧ events.created = events.dropped := by
  cases h with
  | passed => exact .inr ⟨rfl, rfl⟩
  | _ => exact .inl ⟨rfl, rfl⟩

/-- A trial of an engine that the roster does not know keeps the accounts. -/
theorem Trial.accounts {number : Nat} (h : Trial stage setUp configure number events slot)
    (before : Journal S) {p : Phase} (hbefore : ∀ e ∈ before, e.about = some ⟨stage, number⟩)
    {old : List EngineId} {made' : PerStage Nat}
    (hacc : Accounts made journal (old ++ roster)) (hold : ∀ other ∈ old, other = ⟨stage, number⟩)
    (hroster : ⟨stage, number⟩ ∉ roster) (hlt : number < made'.get stage)
    (hmade : ∀ other : EngineId, other ≠ ⟨stage, number⟩ →
      (other.number < made'.get other.stage ↔ other.number < made.get other.stage))
    (hfollow : Duplex.follow ⟨stage, number⟩ (standing made (old ++ roster) ⟨stage, number⟩) before =
      some p)
    (hp : p = .made ∨ p = .ready) (hbalance : before.created + old.length = before.dropped + 1) :
    Accounts made' (journal ++ (before ++ events)) (entry stage slot ++ roster) := by
  refine hacc.extend hroster hold ?_ hmade ?_ ?_ ?_
  · obtain ⟨rfl, -⟩ | ⟨rfl, -⟩ := h.entry_cases
    · exact .inl rfl
    · exact .inr ⟨rfl, hlt⟩
  · intro e he other hother
    have habout : e.about = some ⟨stage, number⟩ := by
      obtain he | he := List.mem_append.mp he
      · exact hbefore e he
      · exact h.about hs hc e he
    exact Option.some.inj (hother.symm.trans habout)
  · rw [follow_append, hfollow, Option.bind_some, h.follow hs hc hsetUp hconfigure hp]
    obtain ⟨rfl, -⟩ | ⟨rfl, -⟩ := h.entry_cases
    · exact congrArg some (standing_of_lt hroster hlt).symm
    · exact congrArg some (standing_of_mem (by simp)).symm
  · rw [Journal.created_append, Journal.dropped_append, length_entry]
    obtain ⟨rfl, hcount⟩ | ⟨rfl, hcount⟩ := h.entry_cases
    · simp only [Option.toList_none, List.length_nil]
      omega
    · simp only [Option.toList_some, List.length_singleton]
      omega

/-- A reset of a slot keeps the accounts. -/
theorem Fitting.accounts (h : Fitting stage setUp configure slot (made.get stage) events slot' count')
    (hacc : Accounts made journal (entry stage slot ++ roster)) :
    Accounts (made.set count' stage) (journal ++ events) (entry stage slot' ++ roster) := by
  cases h with
  | unmade =>
    rw [PerStage.set_get]
    exact hacc.quiet (by simp [Event.about])
  | @made _ events _ htrial =>
    have hroster : (⟨stage, made.get stage⟩ : EngineId) ∉ roster := fun hmem =>
      Nat.lt_irrefl _ (hacc.numbered _ (List.mem_append_right _ hmem))
    refine htrial.accounts hs hc hsetUp hconfigure [.made stage (made.get stage) true]
      (by simp [Event.about]) hacc (by simp [entry]) hroster (by simp) ?_ ?_ (.inl rfl) rfl
    · intro other hother
      by_cases hstage : other.stage = stage
      · have hne : other.number ≠ made.get stage := fun heq => hother (by
          cases other
          simp_all)
        rw [hstage, PerStage.get_set_self]
        omega
      · rw [PerStage.get_set_of_ne _ _ hstage]
    · have hunmade : standing made (entry stage none ++ roster) ⟨stage, made.get stage⟩ = .unmade :=
        standing_of_le hroster (Nat.le_refl _)
      rw [hunmade]
      exact follow_of_about rfl rfl
  | @kept number _ _ _ htrial =>
    have hroster : (⟨stage, number⟩ : EngineId) ∉ roster := (List.nodup_cons.mp hacc.nodup).1
    rw [PerStage.set_get]
    refine htrial.accounts hs hc hsetUp hconfigure [] (by simp) hacc (by simp [entry])
      hroster (hacc.numbered _ List.mem_cons_self) (fun _ _ => Iff.rfl) ?_ (.inr rfl) rfl
    rw [standing_of_mem (by simp)]
    rfl

omit hs hsetUp in
/-- So do new settings. -/
theorem Update.accounts (h : Update stage configure slot events slot')
    (hacc : Accounts made journal (entry stage slot ++ roster)) :
    Accounts made (journal ++ events) (entry stage slot' ++ roster) := by
  cases h with
  | empty => simpa using hacc
  | @accepted number =>
    have hroster : (⟨stage, number⟩ : EngineId) ∉ roster := (List.nodup_cons.mp hacc.nodup).1
    refine hacc.extend hroster (by simp [entry]) (.inr ⟨rfl, hacc.numbered _ List.mem_cons_self⟩)
      (fun _ _ => Iff.rfl) (by simp [Event.about, hc, eq_comm]) ?_ rfl
    rw [standing_of_mem (by simp)]
    exact follow_of_about (by simp [Event.about, hc]) (by simp [Phase.next, hconfigure])
  | @rejected number =>
    have hroster : (⟨stage, number⟩ : EngineId) ∉ roster := (List.nodup_cons.mp hacc.nodup).1
    have hlt : number < made.get stage := hacc.numbered _ List.mem_cons_self
    refine hacc.extend hroster (by simp [entry]) (.inl rfl)
      (fun _ _ => Iff.rfl) (by simp [Event.about, hc, eq_comm]) ?_ rfl
    rw [standing_of_mem (by simp), entry, Option.toList_none, List.map_nil, List.nil_append,
      standing_of_lt hroster hlt]
    simp [Duplex.follow, Phase.next, Event.about, hc, hconfigure]

end Accounts

/-! ### What a fitting says -/

theorem Update.isFrame {stage : Stage} {configure : Request S} {slot slot' : Option Nat}
    {events : Journal S} (hconfigure : configure.purpose = .configure)
    (h : Update stage configure slot events slot') : ∀ e ∈ events, e.isFrame = false := by
  cases h <;> simp [Event.isFrame, hconfigure]

theorem Update.slot_cases {stage : Stage} {configure : Request S} {slot slot' : Option Nat}
    {events : Journal S} (h : Update stage configure slot events slot') :
    slot' = slot ∨ slot' = none := by
  cases h with
  | empty | accepted => exact .inl rfl
  | rejected => exact .inr rfl

section Says

variable {stage : Stage} {setUp configure : Request S} {slot slot' : Option Nat}
  {count count' : Nat} {events : Journal S}

/-- An engine stays exactly if it refuses neither call. -/
theorem Trial.isSome_iff {number : Nat} (h : Trial stage setUp configure number events slot) :
    slot.isSome ↔ ∀ e ∈ events, e.fails = false := by
  cases h <;> simp [Event.fails]

/-- A slot is filled exactly if nothing fails: the making of the engine if the slot was empty, its
set-up and its configuration. -/
theorem Fitting.isSome_iff (h : Fitting stage setUp configure slot count events slot' count') :
    slot'.isSome ↔ ∀ e ∈ events, e.fails = false := by
  cases h with
  | unmade => simp [Event.fails]
  | made h => simpa [Event.fails] using h.isSome_iff
  | kept h => exact h.isSome_iff

variable (hs : setUp.stage = stage) (hc : configure.stage = stage)

include hs hc

theorem Fitting.stage? (h : Fitting stage setUp configure slot count events slot' count') :
    ∀ e ∈ events, e.stage? = some stage := by
  have htrial {number : Nat} {events : Journal S} {slot : Option Nat}
      (h : Trial stage setUp configure number events slot) : ∀ e ∈ events, e.stage? = some stage := by
    cases h <;> simp [Event.stage?, hs, hc]
  cases h with
  | unmade => simp [Event.stage?]
  | made h => simpa [Event.stage?] using htrial h
  | kept h => exact htrial h

omit hs hc in
/-- No call of a fitting belongs to a frame. -/
theorem Fitting.isFrame (hsetUp : setUp.purpose = .setUp) (hconfigure : configure.purpose = .configure)
    (h : Fitting stage setUp configure slot count events slot' count') :
    ∀ e ∈ events, e.isFrame = false := by
  have htrial {number : Nat} {events : Journal S} {slot : Option Nat}
      (h : Trial stage setUp configure number events slot) : ∀ e ∈ events, e.isFrame = false := by
    cases h <;> simp [Event.isFrame, hsetUp, hconfigure]
  cases h with
  | unmade => simp [Event.isFrame]
  | made h => simpa [Event.isFrame] using htrial h
  | kept h => exact htrial h

end Says

/-! ### Workshops -/

namespace Workshop

variable {σ : Type}

/-- A workshop where more was written and made. -/
structure Grows (w : Workshop S F) (events : Journal S) (made : PerStage Nat) (w' : Workshop S F) :
    Prop where
  journal : w'.journal = w.journal ++ events
  made : w'.made = made

theorem setUp_trial (w : Workshop S F) (stage : Stage) (setUp configure : Request S)
    (e : Numbered σ) (f g : σ → Reply σ Unit) :
    ∃ events, w.Grows events w.made (w.setUp stage e [(setUp, f), (configure, g)]).1 ∧
      Trial stage setUp configure e.number events
        ((w.setUp stage e [(setUp, f), (configure, g)]).2.toOption.map (·.number)) := by
  rw [Workshop.setUp]
  cases (f e.engine).result with
  | error error => exact ⟨_, ⟨by simp only [log, List.append_assoc]; rfl, rfl⟩, .refused⟩
  | ok =>
    simp only [Workshop.setUp]
    cases (g (f e.engine).engine).result with
    | error error => exact ⟨_, ⟨by simp only [log, List.append_assoc]; rfl, rfl⟩, .rejected⟩
    | ok => exact ⟨_, ⟨by simp only [log, List.append_assoc]; rfl, rfl⟩, .passed⟩

theorem setUp_update (w : Workshop S F) (stage : Stage) (configure : Request S)
    (e : Numbered σ) (g : σ → Reply σ Unit) :
    ∃ events, w.Grows events w.made (w.setUp stage e [(configure, g)]).1 ∧
      Update stage configure (some e.number) events
        ((w.setUp stage e [(configure, g)]).2.toOption.map (·.number)) := by
  rw [Workshop.setUp]
  cases (g e.engine).result with
  | error error => exact ⟨_, ⟨by simp only [log, List.append_assoc]; rfl, rfl⟩, .rejected⟩
  | ok => exact ⟨_, ⟨by simp only [log]; rfl, rfl⟩, .accepted⟩

/-- Refitting a slot is a fitting. -/
theorem refit_fitting (w : Workshop S F) (stage : Stage) (setUp configure : Request S)
    (make : F.Factory → Nat → F.Factory × Except Engine.Error σ) (slot : Option (Numbered σ))
    (f g : σ → Reply σ Unit) :
    ∃ events count,
      w.Grows events (w.made.set count stage)
        (w.refit stage make slot [(setUp, f), (configure, g)]).1 ∧
      Fitting stage setUp configure (slot.map (·.number)) (w.made.get stage) events
        ((w.refit stage make slot [(setUp, f), (configure, g)]).2.toOption.map (·.number)) count := by
  cases slot with
  | some e =>
    obtain ⟨events, hgrows, htrial⟩ := setUp_trial w stage setUp configure e f g
    refine ⟨events, w.made.get stage, ⟨hgrows.journal, ?_⟩, .kept htrial⟩
    rw [PerStage.set_get]
    exact hgrows.made
  | none =>
    rw [refit, obtain]
    dsimp only
    cases hmake : make w.factory (w.made.get stage) with
    | mk factory result =>
      cases result with
      | error error =>
        exact ⟨[.made stage (w.made.get stage) false], w.made.get stage,
          ⟨rfl, (PerStage.set_get _ _).symm⟩, .unmade⟩
      | ok engine =>
        obtain ⟨events, hgrows, htrial⟩ := setUp_trial
          { ({ w with factory } : Workshop S F).log [.made stage (w.made.get stage) true] with
            made := w.made.set (w.made.get stage + 1) stage }
          stage setUp configure ⟨w.made.get stage, engine⟩ f g
        refine ⟨_, _, ⟨?_, hgrows.made⟩, .made htrial⟩
        exact hgrows.journal.trans (List.append_assoc _ _ _)

end Workshop

end Duplex

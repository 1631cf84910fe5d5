import Duplex.Proofs.Journal
import Mathlib.Data.List.Perm.Basic

/-!
# Accounts: a journal and the engines at work

A journal accounts for a roster of engines when it can be followed for every engine, those on the
roster are ready, every other one that was made has been given up, and there are as many on the
roster as were made and not given up. `Accounts.extend` tells which events keep the accounts when
they are about a single engine; notices, the calls of a frame and releases are cases of it.
-/

namespace Duplex

variable {S : Type}

/-- Where an engine stands between two calls on a context: on the roster, or given up, or not made
yet. -/
def standing (made : PerStage Nat) (roster : List EngineId) (id : EngineId) : Phase :=
  if id ∈ roster then .ready
  else if id.number < made.get id.stage then .released
  else .unmade

theorem standing_of_mem {made : PerStage Nat} {roster : List EngineId} {id : EngineId}
    (h : id ∈ roster) : standing made roster id = .ready := if_pos h

theorem standing_of_lt {made : PerStage Nat} {roster : List EngineId} {id : EngineId}
    (h : id ∉ roster) (hlt : id.number < made.get id.stage) : standing made roster id = .released := by
  rw [standing, if_neg h, if_pos hlt]

theorem standing_of_le {made : PerStage Nat} {roster : List EngineId} {id : EngineId}
    (h : id ∉ roster) (hle : made.get id.stage ≤ id.number) : standing made roster id = .unmade := by
  rw [standing, if_neg h, if_neg (Nat.not_lt.mpr hle)]

/-- An engine that is not unmade is at work or was given up. -/
theorem standing_of_ne_unmade {made : PerStage Nat} {roster : List EngineId} {id : EngineId}
    (h : standing made roster id ≠ .unmade) :
    standing made roster id = .ready ∨ standing made roster id = .released := by
  rw [standing] at h ⊢
  split
  · exact .inl rfl
  · split
    · exact .inr rfl
    · simp_all

namespace Journal

/-- An event about no engine neither makes nor gives up one. -/
theorem created_of_quiet {journal : Journal S} (h : ∀ e ∈ journal, e.about = none) :
    created journal = 0 := by
  refine List.countP_eq_zero.mpr fun e he => ?_
  have := h e he
  cases e with
  | made stage number ok => cases ok <;> simp_all [Event.about, Event.creates]
  | _ => simp [Event.creates]

theorem dropped_of_quiet {journal : Journal S} (h : ∀ e ∈ journal, e.about = none) :
    dropped journal = 0 := by
  refine List.countP_eq_zero.mpr fun e he => ?_
  have := h e he
  cases e with
  | released stage number => simp [Event.about] at this
  | _ => simp [Event.drops]

end Journal

/-- The event of giving an engine up. -/
def EngineId.release (id : EngineId) : Event S := .released id.stage id.number

/-- Events about other engines do not move an engine. -/
theorem follow_of_forall_about_ne {id : EngineId} {p : Phase} {journal : Journal S}
    (h : ∀ e ∈ journal, e.about ≠ some id) : follow id p journal = some p := by
  induction journal with
  | nil => rfl
  | cons e journal ih =>
    rw [follow, if_neg (h e List.mem_cons_self)]
    exact ih fun e' he' => h e' (List.mem_cons_of_mem e he')

/-- The journal tells of the engines that are at work and of those that were given up, of nothing
else, and in a possible order. -/
structure Accounts (made : PerStage Nat) (journal : Journal S) (roster : List EngineId) : Prop where
  nodup : roster.Nodup
  numbered : ∀ id ∈ roster, id.number < made.get id.stage
  follows : ∀ id, follow id .unmade journal = some (standing made roster id)
  balance : journal.created = journal.dropped + roster.length

namespace Accounts

variable {made made' : PerStage Nat} {journal events : Journal S} {roster : List EngineId}

/-- Nothing was made and nobody is at work. -/
theorem nil : Accounts (.const 0) ([] : Journal S) [] where
  nodup := List.nodup_nil
  numbered := by simp
  follows id := by simp [follow, standing]
  balance := rfl

/-- The order of the roster is of no account. -/
theorem perm {roster' : List EngineId} (h : Accounts made journal roster)
    (hperm : roster.Perm roster') : Accounts made journal roster' where
  nodup := hperm.nodup_iff.mp h.nodup
  numbered id hid := h.numbered id (hperm.mem_iff.mpr hid)
  follows id := by simpa only [standing, hperm.mem_iff] using h.follows id
  balance := hperm.length_eq ▸ h.balance

/-- Events about one engine keep the accounts when they move it from where it stood to where it
stands now, and count its coming and going. -/
theorem extend {id : EngineId} {old new : List EngineId} (h : Accounts made journal (old ++ roster))
    (hroster : id ∉ roster) (hold : ∀ other ∈ old, other = id)
    (hnew : new = [] ∨ new = [id] ∧ id.number < made'.get id.stage)
    (hmade : ∀ other ≠ id,
      other.number < made'.get other.stage ↔ other.number < made.get other.stage)
    (habout : ∀ e ∈ events, ∀ other, e.about = some other → other = id)
    (hfollow : follow id (standing made (old ++ roster) id) events =
      some (standing made' (new ++ roster) id))
    (hbalance : events.created + old.length = events.dropped + new.length) :
    Accounts made' (journal ++ events) (new ++ roster) where
  nodup := by
    have hrest : roster.Nodup := (List.nodup_append.mp h.nodup).2.1
    obtain rfl | ⟨rfl, -⟩ := hnew
    · exact hrest
    · exact List.nodup_cons.mpr ⟨hroster, hrest⟩
  numbered other hother := by
    obtain hother | hother := List.mem_append.mp hother
    · obtain rfl | ⟨rfl, hlt⟩ := hnew
      · simp at hother
      · exact List.mem_singleton.mp hother ▸ hlt
    · have hne : other ≠ id := fun heq => hroster (heq ▸ hother)
      exact (hmade other hne).mpr (h.numbered other (List.mem_append_right old hother))
  follows other := by
    rw [follow_append, h.follows other, Option.bind_some]
    by_cases hother : other = id
    · exact hother ▸ hfollow
    · have hquiet : ∀ e ∈ events, e.about ≠ some other := fun e he heq =>
        hother (habout e he other heq)
      have hmem : other ∈ old ++ roster ↔ other ∈ new ++ roster := by
        have hnotOld : other ∉ old := fun hmem => hother (hold other hmem)
        have hnotNew : other ∉ new := by
          obtain rfl | ⟨rfl, -⟩ := hnew <;> simp [hother]
        simp [hnotOld, hnotNew]
      rw [follow_of_forall_about_ne hquiet, standing, standing]
      simp only [hmem, hmade other hother]
  balance := by
    have hlen := h.balance
    rw [List.length_append] at hlen ⊢
    rw [Journal.created_append, Journal.dropped_append]
    omega

/-- Events about no engine keep the accounts. -/
theorem quiet (h : Accounts made journal roster) (hquiet : ∀ e ∈ events, e.about = none) :
    Accounts made (journal ++ events) roster where
  nodup := h.nodup
  numbered := h.numbered
  follows id := by
    have hne : ∀ e ∈ events, e.about ≠ some id := fun e he => by simp [hquiet e he]
    rw [follow_append, h.follows id, Option.bind_some, follow_of_forall_about_ne hne]
  balance := by
    rw [Journal.created_append, Journal.dropped_append, Journal.created_of_quiet hquiet,
      Journal.dropped_of_quiet hquiet]
    exact h.balance

theorem notices (h : Accounts made journal roster) (notices : List Notice) :
    Accounts made (journal ++ notices.map .noticed) roster :=
  h.quiet fun e he => by
    obtain ⟨notice, -, rfl⟩ := List.mem_map.mp he
    rfl

/-- So do the calls of a frame on engines at work. -/
theorem frames (h : Accounts made journal roster)
    (hevents : ∀ e ∈ events, e.about = none ∨ ∃ number request ok,
      e = .called number request ok ∧ request.purpose = .frame ∧ ⟨request.stage, number⟩ ∈ roster) :
    Accounts made (journal ++ events) roster := by
  induction events using List.reverseRecOn with
  | nil => simpa using h
  | append_singleton events e ih =>
    have hrest := ih fun e' he' => hevents e' (List.mem_append_left _ he')
    rw [← List.append_assoc]
    obtain hquiet | ⟨number, request, ok, rfl, hpurpose, hmem⟩ := hevents e (by simp)
    · exact hrest.quiet (by simpa using hquiet)
    · refine ⟨hrest.nodup, hrest.numbered, fun id => ?_, ?_⟩
      · rw [follow_concat_eq_some]
        refine ⟨_, hrest.follows id, ?_⟩
        by_cases hid : (⟨request.stage, number⟩ : EngineId) = id
        · subst hid
          rw [standing_of_mem hmem]
          exact .inl ⟨rfl, by simp [Phase.next, hpurpose]⟩
        · exact .inr ⟨fun heq => hid (Option.some.inj heq), rfl⟩
      · have hcreated : Journal.created [Event.called number request ok] = 0 := rfl
        have hdropped : Journal.dropped [Event.called number request ok] = 0 := rfl
        rw [Journal.created_append, Journal.dropped_append, hcreated, hdropped]
        exact hrest.balance

/-- Giving up engines takes them off the roster. -/
theorem released {gone : List EngineId} (h : Accounts made journal (gone ++ roster)) :
    Accounts made (journal ++ gone.map EngineId.release) roster := by
  induction gone generalizing journal with
  | nil => simpa using h
  | cons id gone ih =>
    have hnotMem : id ∉ gone ++ roster := (List.nodup_cons.mp h.nodup).1
    have hlt : id.number < made.get id.stage := h.numbered id List.mem_cons_self
    have hone : Accounts made (journal ++ [id.release]) ([] ++ (gone ++ roster)) := by
      have h : Accounts made journal ([id] ++ (gone ++ roster)) := h
      refine h.extend hnotMem (by simp) (.inl rfl) (fun _ _ => Iff.rfl) ?_ ?_ ?_
      · intro e he other habout
        obtain rfl := List.mem_singleton.mp he
        exact (Option.some.inj habout).symm
      · rw [standing_of_mem (by simp), List.nil_append, standing_of_lt hnotMem hlt]
        exact follow_of_about rfl rfl
      · rfl
    rw [List.map_cons, List.append_cons]
    exact ih hone

/-- An engine that was made is at work or was given up, and its calls are in order. -/
theorem proper (h : Accounts made journal roster) {id : EngineId}
    (hid : .made id.stage id.number true ∈ journal) : Proper (journal.callsOn id) :=
  (shows_of_follow (h.follows id)).proper
    (standing_of_ne_unmade ((made_mem_of_follow (h.follows id)).mp hid))

/-- One that was not made takes no call. -/
theorem callsOn_eq_nil (h : Accounts made journal roster) {id : EngineId}
    (hid : .made id.stage id.number true ∉ journal) : journal.callsOn id = [] := by
  have hshows := shows_of_follow (h.follows id)
  have hunmade : standing made roster id = .unmade :=
    Decidable.not_not.mp (mt (made_mem_of_follow (h.follows id)).mpr hid)
  rw [hunmade] at hshows
  exact hshows

end Accounts

end Duplex

import Duplex.Workshop
import Mathlib.Data.List.Induction
import Mathlib.Logic.Function.Basic

/-!
# Journals: the life of an engine

A journal tells of every engine when it was made, which calls it took and when it was given up.
`Phase` is where an engine stands in its life and `Phase.next` which events can come next; `follow`
reads a journal on behalf of one engine and fails at an event that cannot. The calls on an engine
that was followed are `Proper`: set-up first, then configuration, then frames, and nothing after a
set-up or a configuration that failed.
-/

namespace Duplex

variable {S : Type}

/-- What a call on an engine is for. -/
inductive Purpose where
  | setUp
  | configure
  /-- The call belongs to a frame of audio. -/
  | frame
  deriving DecidableEq, Repr

def Request.purpose : Request S → Purpose
  | echoSetUp .. | noiseSetUp .. | gainSetUp .. => .setUp
  | echoConfigure .. | noiseConfigure .. | gainConfigure .. => .configure
  | echoFarend .. | echoProcess .. | noiseAnalyze .. | noiseProcess .. | gainAddMic ..
  | gainProcess .. => .frame

/-- The name of an engine: engines are numbered for each stage. -/
structure EngineId where
  stage : Stage
  number : Nat
  deriving DecidableEq, Repr

namespace Event

/-- The engine that an event is about. An engine that could not be made is none. -/
def about : Event S → Option EngineId
  | made stage number ok => if ok then some ⟨stage, number⟩ else none
  | called number request _ => some ⟨request.stage, number⟩
  | released stage number => some ⟨stage, number⟩
  | noticed _ => none

/-- Whether an engine was made. -/
def creates : Event S → Bool
  | made _ _ ok => ok
  | _ => false

/-- Whether an engine was given up. -/
def drops : Event S → Bool
  | released .. => true
  | _ => false

end Event

namespace Journal

/-- How many engines were made. -/
def created (journal : Journal S) : Nat := journal.countP Event.creates

/-- How many engines were given up. -/
def dropped (journal : Journal S) : Nat := journal.countP Event.drops

/-- The calls on one engine in order, each with whether it succeeded. -/
def callsOn (id : EngineId) (journal : Journal S) : List (Request S × Bool) :=
  journal.filterMap fun
    | .called number request ok => if ⟨request.stage, number⟩ = id then some (request, ok) else none
    | _ => none

theorem created_append (j k : Journal S) : created (j ++ k) = created j + created k :=
  List.countP_append

theorem dropped_append (j k : Journal S) : dropped (j ++ k) = dropped j + dropped k :=
  List.countP_append

theorem callsOn_append (id : EngineId) (j k : Journal S) :
    callsOn id (j ++ k) = callsOn id j ++ callsOn id k :=
  List.filterMap_append

theorem callsOn_called {id : EngineId} {number : Nat} {request : Request S} {ok : Bool}
    (h : (⟨request.stage, number⟩ : EngineId) = id) :
    callsOn id [.called number request ok] = [(request, ok)] := by
  simp [callsOn, h]

theorem callsOn_of_about_ne {id : EngineId} {e : Event S} (h : e.about ≠ some id) :
    callsOn id [e] = [] := by
  cases e with
  | called number request ok =>
    have hne : (⟨request.stage, number⟩ : EngineId) ≠ id := fun heq => h (congrArg some heq)
    simp [callsOn, hne]
  | _ => rfl

end Journal

/-! ### Phases -/

/-- Where an engine stands in its life. -/
inductive Phase where
  | unmade
  /-- It was made and has taken no call. -/
  | made
  /-- Its last call was a set-up that succeeded. -/
  | setUp
  /-- It is set up and configured. -/
  | ready
  /-- A set-up or a configuration failed. -/
  | refused
  | released
  deriving DecidableEq, Repr

namespace Phase

/-- The phase behind an event, if the event can come. -/
def next : Phase → Event S → Option Phase
  | unmade, .made .. => some made
  | made, .called _ request ok =>
    if request.purpose = .setUp then some (if ok then setUp else refused) else none
  | setUp, .called _ request ok =>
    if request.purpose = .configure then some (if ok then ready else refused) else none
  | ready, .called _ request ok =>
    match request.purpose with
    | .setUp => some (if ok then setUp else refused)
    | .configure => some (if ok then ready else refused)
    | .frame => some ready
  | ready, .released .. => some released
  | refused, .released .. => some released
  | _, _ => none

theorem next_ne_unmade {p : Phase} {e : Event S} : p.next e ≠ some unmade := by
  cases p <;> cases e <;> simp only [next] <;> (try split) <;> simp <;> split <;> simp

/-- An engine that was not made can only be made. -/
theorem next_unmade {e : Event S} {q : Phase} (h : unmade.next e = some q) :
    ∃ stage number ok, e = .made stage number ok := by
  cases e with
  | made stage number ok => exact ⟨stage, number, ok, rfl⟩
  | _ => simp [next] at h

end Phase

/-- Read a journal on behalf of one engine, from a phase on. -/
def follow (id : EngineId) : Phase → Journal S → Option Phase
  | p, [] => some p
  | p, e :: rest => if e.about = some id then (p.next e).bind (follow id · rest) else follow id p rest

section Follow

variable {id : EngineId}

theorem follow_append (p : Phase) (j k : Journal S) :
    follow id p (j ++ k) = (follow id p j).bind (follow id · k) := by
  induction j generalizing p with
  | nil => rfl
  | cons e j ih =>
    rw [List.cons_append, follow, follow]
    split
    · cases p.next e with
      | none => rfl
      | some q => exact ih q
    · exact ih p

theorem follow_of_about {p q : Phase} {e : Event S} (h : e.about = some id) (hq : p.next e = some q) :
    follow id p [e] = some q := by
  rw [follow, if_pos h, hq]
  rfl

/-- A journal and one event more are followed when the journal is and the event can come. -/
theorem follow_concat_eq_some {p q : Phase} {j : Journal S} {e : Event S} :
    follow id p (j ++ [e]) = some q ↔ ∃ r, follow id p j = some r ∧
      (e.about = some id ∧ r.next e = some q ∨ e.about ≠ some id ∧ r = q) := by
  rw [follow_append, Option.bind_eq_some_iff]
  refine exists_congr fun r => and_congr_right fun _ => ?_
  by_cases h : e.about = some id
  · simp [follow, h]
  · simp [follow, h]

/-- An engine that was followed has been made, or its making is not in the journal. -/
theorem made_mem_of_follow {p : Phase} {j : Journal S} (h : follow id .unmade j = some p) :
    Event.made id.stage id.number true ∈ j ↔ p ≠ .unmade := by
  induction j using List.reverseRecOn generalizing p with
  | nil => simpa [follow] using h.symm
  | append_singleton j e ih =>
    obtain ⟨r, hr, ⟨habout, hnext⟩ | ⟨habout, rfl⟩⟩ := follow_concat_eq_some.mp h
    · have hp : p ≠ .unmade := fun heq => Phase.next_ne_unmade (heq ▸ hnext)
      refine iff_of_true ?_ hp
      by_cases hmade : r = .unmade
      · subst hmade
        obtain ⟨stage, number, ok, rfl⟩ := Phase.next_unmade hnext
        cases ok with
        | false => simp [Event.about] at habout
        | true =>
          obtain rfl : _ = id := by simpa [Event.about] using habout
          simp
      · exact List.mem_append_left _ ((ih hr).mpr hmade)
    · rw [List.mem_append, ih hr, or_iff_left]
      intro hmem
      obtain rfl := List.mem_singleton.mp hmem
      exact habout rfl

end Follow

/-! ### Proper calls -/

/-- The calls that an engine took are in order: it was set up first and then configured; both had
succeeded before the first call of a frame; and a set-up or a configuration that failed was the last
call. -/
structure Proper (calls : List (Request S × Bool)) : Prop where
  first : ∃ setUp ok, calls[0]? = some (setUp, ok) ∧ setUp.purpose = .setUp
  second : ∀ setUp, calls[0]? = some (setUp, true) →
    ∃ configure ok, calls[1]? = some (configure, ok) ∧ configure.purpose = .configure
  frames : ∀ (i : Nat) call, calls[i]? = some call → call.1.purpose = .frame →
    ∃ setUp configure, calls[0]? = some (setUp, true) ∧ setUp.purpose = .setUp ∧
      calls[1]? = some (configure, true) ∧ configure.purpose = .configure ∧ 1 < i
  last : ∀ (i : Nat) call, calls[i]? = some call → call.1.purpose ≠ .frame → call.2 = false →
    i + 1 = calls.length

/-- An engine that was set up and configured, and took every later set-up and configuration. -/
def Begun (calls : List (Request S × Bool)) : Prop :=
  ∃ setUp configure rest, calls = (setUp, true) :: (configure, true) :: rest ∧
    setUp.purpose = .setUp ∧ configure.purpose = .configure ∧
    ∀ call ∈ rest, call.1.purpose ≠ .frame → call.2 = true

/-- An engine whose last call was a set-up or a configuration that failed, and only that one. -/
inductive Refused : List (Request S × Bool) → Prop where
  | setUp {r : Request S} (hr : r.purpose = .setUp) : Refused [(r, false)]
  | configure {r r' : Request S} (hr : r.purpose = .setUp) (hr' : r'.purpose = .configure) :
    Refused [(r, true), (r', false)]
  | later {calls : List (Request S × Bool)} {r : Request S} (h : Begun calls)
    (hr : r.purpose ≠ .frame) : Refused (calls ++ [(r, false)])

/-- The calls on an engine in a phase. -/
def Phase.Shows : Phase → List (Request S × Bool) → Prop
  | unmade, calls => calls = []
  | made, calls => calls = []
  | setUp, calls => (∃ r : Request S, calls = [(r, true)] ∧ r.purpose = .setUp) ∨ Begun calls
  | ready, calls => Begun calls
  | refused, calls => Refused calls
  | released, calls => Begun calls ∨ Refused calls

theorem Begun.concat {calls : List (Request S × Bool)} (h : Begun calls) {call : Request S × Bool}
    (hcall : call.1.purpose ≠ .frame → call.2 = true) : Begun (calls ++ [call]) := by
  obtain ⟨setUp, configure, rest, rfl, hs, hc, hrest⟩ := h
  refine ⟨setUp, configure, rest ++ [call], rfl, hs, hc, ?_⟩
  intro other hother
  rcases List.mem_append.mp hother with hother | hother
  · exact hrest other hother
  · exact List.mem_singleton.mp hother ▸ hcall

/-- An event that can come adds its call to those that the phase shows. -/
theorem Phase.Shows.next {p q : Phase} {calls : List (Request S × Bool)} {id : EngineId}
    {e : Event S} (h : p.Shows calls) (habout : e.about = some id) (hq : p.next e = some q) :
    q.Shows (calls ++ Journal.callsOn id [e]) := by
  cases e with
  | called number request ok =>
    rw [Journal.callsOn_called (Option.some.inj habout)]
    cases p with
    | made =>
      obtain rfl : calls = [] := h
      simp only [Phase.next, Option.ite_none_right_eq_some] at hq
      obtain ⟨hpurpose, hq⟩ := hq
      cases ok with
      | true => obtain rfl : setUp = q := Option.some.inj hq; exact .inl ⟨request, rfl, hpurpose⟩
      | false => obtain rfl : refused = q := Option.some.inj hq; exact .setUp hpurpose
    | setUp =>
      simp only [Phase.next, Option.ite_none_right_eq_some] at hq
      obtain ⟨hpurpose, hq⟩ := hq
      have hframe : request.purpose ≠ .frame := by simp [hpurpose]
      cases ok with
      | true =>
        obtain rfl : ready = q := Option.some.inj hq
        obtain ⟨r, rfl, hr⟩ | h := h
        · exact ⟨r, request, [], rfl, hr, hpurpose, by simp⟩
        · exact h.concat fun _ => rfl
      | false =>
        obtain rfl : refused = q := Option.some.inj hq
        obtain ⟨r, rfl, hr⟩ | h := h
        · exact .configure hr hpurpose
        · exact .later h hframe
    | ready =>
      have h : Begun calls := h
      cases hpurpose : request.purpose with
      | frame =>
        simp only [Phase.next, hpurpose] at hq
        obtain rfl : ready = q := Option.some.inj hq
        exact h.concat fun hne => absurd hpurpose hne
      | setUp | configure =>
        simp only [Phase.next, hpurpose] at hq
        have hframe : request.purpose ≠ .frame := by simp [hpurpose]
        cases ok with
        | true =>
          have hbegun : Begun (calls ++ [(request, true)]) := h.concat fun _ => rfl
          obtain rfl := Option.some.inj hq
          first | exact .inr hbegun | exact hbegun
        | false => obtain rfl : refused = q := Option.some.inj hq; exact .later h hframe
    | _ => simp [Phase.next] at hq
  | made stage number ok =>
    cases p with
    | unmade =>
      obtain rfl : calls = [] := h
      obtain rfl : Phase.made = q := Option.some.inj hq
      rfl
    | _ => simp [Phase.next] at hq
  | released stage number =>
    rw [show Journal.callsOn id [(.released stage number : Event S)] = [] from rfl, List.append_nil]
    cases p with
    | ready => obtain rfl : released = q := Option.some.inj hq; exact .inl h
    | refused => obtain rfl : released = q := Option.some.inj hq; exact .inr h
    | _ => simp [Phase.next] at hq
  | noticed notice => simp [Event.about] at habout

/-- The calls on an engine that was followed are those that its phase shows. -/
theorem shows_of_follow {id : EngineId} {p : Phase} {j : Journal S}
    (h : follow id .unmade j = some p) : p.Shows (Journal.callsOn id j) := by
  induction j using List.reverseRecOn generalizing p with
  | nil => obtain rfl : Phase.unmade = p := Option.some.inj h; rfl
  | append_singleton j e ih =>
    rw [Journal.callsOn_append]
    obtain ⟨r, hr, ⟨habout, hnext⟩ | ⟨habout, rfl⟩⟩ := follow_concat_eq_some.mp h
    · exact (ih hr).next habout hnext
    · rw [Journal.callsOn_of_about_ne habout, List.append_nil]
      exact ih hr

theorem Begun.proper {calls : List (Request S × Bool)} (h : Begun calls) : Proper calls := by
  obtain ⟨setUp, configure, rest, rfl, hs, hc, hrest⟩ := h
  refine ⟨⟨setUp, true, rfl, hs⟩, fun _ _ => ⟨configure, true, rfl, hc⟩, ?_, ?_⟩
  · intro i call hcall hframe
    refine ⟨setUp, configure, rfl, hs, rfl, hc, ?_⟩
    rcases i with _ | _ | i
    · obtain rfl := Option.some.inj hcall
      simp [hs] at hframe
    · obtain rfl := Option.some.inj hcall
      simp [hc] at hframe
    · omega
  · intro i call hcall hframe hfailed
    rcases i with _ | _ | i
    · obtain rfl := Option.some.inj hcall
      simp at hfailed
    · obtain rfl := Option.some.inj hcall
      simp at hfailed
    · have hok := hrest call (List.mem_of_getElem? (i := i) hcall) hframe
      simp [hfailed] at hok

/-- A failed set-up or configuration can end the calls on an engine that had begun. -/
theorem Begun.proper_concat {calls : List (Request S × Bool)} {r : Request S} (h : Begun calls)
    (hr : r.purpose ≠ .frame) : Proper (calls ++ [(r, false)]) := by
  obtain ⟨setUp, configure, rest, rfl, hs, hc, hrest⟩ := h
  have hbegun : Begun ((setUp, true) :: (configure, true) :: rest) :=
    ⟨setUp, configure, rest, rfl, hs, hc, hrest⟩
  refine ⟨⟨setUp, true, rfl, hs⟩, fun _ _ => ⟨configure, true, rfl, hc⟩, ?_, ?_⟩
  · intro i call hcall hframe
    rw [List.getElem?_append] at hcall
    split at hcall
    · obtain ⟨_, _, -, -, -, -, hi⟩ := hbegun.proper.frames i call hcall hframe
      exact ⟨setUp, configure, rfl, hs, rfl, hc, hi⟩
    · obtain rfl := List.mem_singleton.mp (List.mem_of_getElem? hcall)
      exact absurd hframe hr
  · intro i call hcall hframe hfailed
    rw [List.length_append, List.length_singleton]
    rw [List.getElem?_append] at hcall
    split at hcall
    · rename_i hlt
      have hlast := hbegun.proper.last i call hcall hframe hfailed
      rcases i with _ | _ | i
      · obtain rfl := Option.some.inj hcall
        simp at hfailed
      · obtain rfl := Option.some.inj hcall
        simp at hfailed
      · have hok := hrest call (List.mem_of_getElem? (i := i) hcall) hframe
        simp [hfailed] at hok
    · obtain ⟨hlt, -⟩ := List.getElem?_eq_some_iff.mp hcall
      simp only [List.length_singleton] at hlt
      omega

theorem Refused.proper {calls : List (Request S × Bool)} (h : Refused calls) : Proper calls := by
  cases h with
  | @setUp r hr =>
    refine ⟨⟨r, false, rfl, hr⟩, fun setUp h => by simp at h, fun i call h hframe => ?_,
      fun i call h _ _ => ?_⟩
    · obtain rfl := List.mem_singleton.mp (List.mem_of_getElem? h)
      simp [hr] at hframe
    · obtain ⟨hi, -⟩ := List.getElem?_eq_some_iff.mp h
      simp only [List.length_singleton] at hi ⊢
      omega
  | @configure r r' hr hr' =>
    refine ⟨⟨r, true, rfl, hr⟩, fun _ _ => ⟨r', false, rfl, hr'⟩, fun i call h hframe => ?_,
      fun i call h _ hfailed => ?_⟩
    · have hcall : call = (r, true) ∨ call = (r', false) := by simpa using List.mem_of_getElem? h
      obtain rfl | rfl := hcall
      · simp [hr] at hframe
      · simp [hr'] at hframe
    · rcases i with _ | _ | i
      · obtain rfl := Option.some.inj h
        simp at hfailed
      · rfl
      · simp at h
  | later h hr => exact h.proper_concat hr

/-- The calls on an engine that is ready or was given up are in order. -/
theorem Phase.Shows.proper {p : Phase} {calls : List (Request S × Bool)} (h : p.Shows calls)
    (hp : p = .ready ∨ p = .released) : Proper calls := by
  obtain rfl | rfl := hp
  · exact Begun.proper h
  · obtain h | h := h
    · exact h.proper
    · exact h.proper

end Duplex

import Duplex.Engine.Bypass
import Duplex.Proofs.Context

/-!
# References: how many hold a session

A session begins with one reference, `retain` takes another, `release` gives one up, and the last
release or `fini` ends it. How many are held can be counted from the calls alone
(`Transcript.held`), and as long as that number fits a machine word the counter of the context
agrees with it (`references_counted`). `Tenure` lists everything a call can do to the session and
the counter.
-/

namespace Duplex

variable {S : Type} {F : Engine.Family}

/-- Whether the call is one of those that begin, end, take or give up a session. -/
def Operation.holding : Operation → Bool
  | .init .. | .fini | .retain | .release => true
  | _ => false

/-- Whether a session has begun. -/
def Answer.begun : Answer → Bool
  | .status (.ok .initialized) => true
  | _ => false

namespace Transcript

/-- How many references are held after a call if `held` were before it. -/
def tally (held : Nat) (call : Operation × Answer) : Nat :=
  match call.1 with
  | .init .. => if call.2.begun then 1 else held
  | .fini => 0
  | .retain => if held = 0 then 0 else held + 1
  | .release => held - 1
  | _ => held

/-- How many references are held after the calls. -/
def held (t : Transcript) : Nat := t.foldl tally 0

/-- The call began a session. -/
def Begins (call : Operation × Answer) : Prop :=
  ∃ channels nearRate farRate delay,
    call = (.init channels nearRate farRate delay, .status (.ok .initialized))

theorem begun_iff {answer : Answer} :
    answer.begun = true ↔ answer = .status (.ok .initialized) := by
  constructor
  · intro h
    unfold Answer.begun at h
    split at h
    · rfl
    · exact absurd h (by simp)
  · rintro rfl
    rfl

@[simp] theorem held_nil : held [] = 0 := rfl

theorem held_concat (t : Transcript) (call : Operation × Answer) :
    held (t ++ [call]) = tally (held t) call := by
  simp [held, List.foldl_append]

/-- A call begins a session, ends it, takes or gives up a reference, or leaves their number
alone. -/
theorem tally_cases (held : Nat) (call : Operation × Answer) :
    Begins call ∧ tally held call = 1 ∨
      call.1 = .fini ∧ tally held call = 0 ∨
      call.1 = .retain ∧ tally held call = (if held = 0 then 0 else held + 1) ∨
      call.1 = .release ∧ tally held call = held - 1 ∨
      (¬ Begins call ∧ call.1 ∉ [.fini, .retain, .release]) ∧ tally held call = held := by
  obtain ⟨op, answer⟩ := call
  by_cases hother : op.holding = false
  · refine .inr (.inr (.inr (.inr ⟨⟨?_, ?_⟩, ?_⟩)))
    · rintro ⟨_, _, _, _, h⟩
      obtain ⟨rfl, -⟩ := Prod.mk.inj h
      exact absurd hother (by simp [Operation.holding])
    · intro hmem
      simp only [List.mem_cons, List.not_mem_nil, or_false] at hmem
      rcases hmem with rfl | rfl | rfl <;> exact absurd hother (by simp [Operation.holding])
    · cases op <;> first | rfl | exact absurd hother (by simp [Operation.holding])
  cases op with
  | init channels nearRate farRate delay =>
    by_cases hbegun : answer.begun = true
    · obtain rfl := begun_iff.mp hbegun
      exact .inl ⟨⟨channels, nearRate, farRate, delay, rfl⟩, rfl⟩
    · refine .inr (.inr (.inr (.inr ⟨⟨?_, by simp⟩, if_neg hbegun⟩)))
      rintro ⟨_, _, _, _, h⟩
      obtain ⟨-, rfl⟩ := Prod.mk.inj h
      exact hbegun rfl
  | fini => exact .inr (.inl ⟨rfl, rfl⟩)
  | retain => exact .inr (.inr (.inl ⟨rfl, rfl⟩))
  | release => exact .inr (.inr (.inr (.inl ⟨rfl, rfl⟩)))
  | _ => exact absurd rfl hother

theorem tally_le (held : Nat) (call : Operation × Answer) : tally held call ≤ held + 1 := by
  rcases tally_cases held call with ⟨-, h⟩ | ⟨-, h⟩ | ⟨-, h⟩ | ⟨-, h⟩ | ⟨-, h⟩
  · omega
  · omega
  · rw [h]
    split_ifs <;> omega
  · omega
  · omega

theorem held_le_length (t : Transcript) : held t ≤ t.length := by
  induction t using List.reverseRecOn with
  | nil => exact le_rfl
  | append_singleton t call ih =>
    have hcall := tally_le (held t) call
    rw [held_concat, List.length_append, List.length_singleton]
    omega

/-- While references are held there was a call that began the session, and since then nothing began
or ended one; the references are that one and those taken, less those given up. -/
theorem held_since {t : Transcript} (h : 1 ≤ held t) :
    ∃ (before since : Transcript) (call : Operation × Answer), t = before ++ call :: since ∧
      Begins call ∧ (∀ x ∈ since, ¬ Begins x ∧ x.1 ≠ .fini) ∧
      held t + since.countP (·.1 = .release) = 1 + since.countP (·.1 = .retain) := by
  induction t using List.reverseRecOn with
  | nil => exact absurd h (by simp)
  | append_singleton t call ih =>
    rw [held_concat] at h ⊢
    -- A call that neither begins nor ends a session belongs to what was called since.
    have later (hpos : 1 ≤ held t) (hcall : ¬ Begins call ∧ call.1 ≠ .fini)
        (hcount : tally (held t) call + (if call.1 = .release then 1 else 0) =
          held t + if call.1 = .retain then 1 else 0) :
        ∃ (before since : Transcript) (first : Operation × Answer),
          t ++ [call] = before ++ first :: since ∧ Begins first ∧
          (∀ x ∈ since, ¬ Begins x ∧ x.1 ≠ .fini) ∧
          tally (held t) call + since.countP (·.1 = .release) =
            1 + since.countP (·.1 = .retain) := by
      obtain ⟨before, since, first, ht, hfirst, hsince, hheld⟩ := ih hpos
      refine ⟨before, since ++ [call], first, by rw [ht]; simp, hfirst, ?_, ?_⟩
      · intro x hx
        rcases List.mem_append.mp hx with hx | hx
        · exact hsince x hx
        · rw [List.mem_singleton.mp hx]
          exact hcall
      · simp only [List.countP_append, List.countP_singleton, decide_eq_true_eq]
        omega
    rcases tally_cases (held t) call with ⟨hbegins, htally⟩ | ⟨-, htally⟩ | ⟨hop, htally⟩ |
      ⟨hop, htally⟩ | ⟨⟨hbegins, hop⟩, htally⟩
    · exact ⟨t, [], call, rfl, hbegins, by simp, by simp [htally]⟩
    · omega
    · by_cases hzero : held t = 0
      · rw [if_pos hzero] at htally
        omega
      · rw [if_neg hzero] at htally
        refine later (Nat.one_le_iff_ne_zero.mpr hzero) ⟨?_, by rw [hop]; simp⟩
          (by simp [hop, htally])
        rintro ⟨_, _, _, _, rfl⟩
        simp at hop
    · refine later (by omega) ⟨?_, by rw [hop]; simp⟩ (by simp [hop]; omega)
      rintro ⟨_, _, _, _, rfl⟩
      simp at hop
    · simp only [List.mem_cons, List.not_mem_nil, or_false, not_or] at hop
      exact later (by omega) ⟨hbegins, hop.1⟩ (by simp [hop, htally])

end Transcript

namespace Context

/-- Everything a call can make of the session and the counter, with what it answers. -/
inductive Tenure (c : Context S F) : Operation → Answer → Context S F → Prop
  /-- A session begins with one reference. -/
  | begun {channels nearRate farRate delay c'} (hnone : c.isInitialized = false)
      (hsession : c'.isInitialized = true) (hcount : c'.references = 1) :
      Tenure c (.init channels nearRate farRate delay) (.status (.ok .initialized)) c'
  /-- There is a session, and it stays. -/
  | already {channels nearRate farRate delay} (hsession : c.isInitialized = true) :
      Tenure c (.init channels nearRate farRate delay) (.status (.ok .alreadyInitialized)) c
  /-- No session could be made. -/
  | refused {channels nearRate farRate delay e} (hnone : c.isInitialized = false)
      (hcount : c.references = 0) :
      Tenure c (.init channels nearRate farRate delay) (.status (.error e)) c
  | ended (hnone : c.fini.isInitialized = false) (hcount : c.fini.references = 0) :
      Tenure c .fini .done c.fini
  | retained {n : UInt64} (hsession : c.isInitialized = true)
      (hcount : n.toNat = c.references.toNat + 1) :
      Tenure c .retain (.references n.toNat) { c with references := n }
  /-- There is no session to take a reference to. -/
  | unretained (hnone : c.isInitialized = false) : Tenure c .retain (.references 0) c
  /-- A reference is given up that was not the last one. -/
  | released {n : UInt64} (hsession : c.isInitialized = true) (hmore : 1 ≤ n.toNat)
      (hcount : n.toNat + 1 = c.references.toNat) :
      Tenure c .release (.references n.toNat) { c with references := n }
  /-- The last reference is given up, and the session with it. -/
  | last (hsession : c.isInitialized = true) (hlast : c.references = 1)
      (hnone : c.fini.isInitialized = false) (hcount : c.fini.references = 0) :
      Tenure c .release (.references 0) c.fini
  /-- There is no session to give a reference up. -/
  | unreleased (hnone : c.isInitialized = false) : Tenure c .release (.references 0) c
  /-- Any other call keeps the session, or the lack of one, and the counter. -/
  | kept {op answer c'} (hop : op.holding = false) (hsession : c'.isInitialized = c.isInitialized)
      (hcount : c'.references = c.references) : Tenure c op answer c'

/-- There is a session exactly if the counter is not zero. -/
def Held (c : Context S F) : Prop := c.isInitialized = true ↔ c.references ≠ 0

theorem Held.eq_zero {c : Context S F} (h : c.Held) (hnone : c.isInitialized = false) :
    c.references = 0 := by
  by_contra hne
  rw [h.mpr hne] at hnone
  exact absurd hnone (by simp)

theorem toNat_ne_zero {n : UInt64} (h : n ≠ 0) : n.toNat ≠ 0 := by
  intro hzero
  exact h (UInt64.toNat.inj hzero)

theorem held_of_session {c : Context S F} (hsession : c.isInitialized = true)
    (hcount : c.references.toNat ≠ 0) : c.Held := by
  refine ⟨fun _ => ?_, fun _ => hsession⟩
  intro hzero
  exact hcount (by rw [hzero]; rfl)

/-- The counter follows the tally of the calls, and stays zero exactly without a session. -/
theorem Tenure.keeps {c c' : Context S F} {op : Operation} {answer : Answer}
    (h : c.Tenure op answer c') (hheld : c.Held) :
    c'.Held ∧ c'.references.toNat = Transcript.tally c.references.toNat (op, answer) := by
  cases h with
  | begun hnone hsession hcount =>
    refine ⟨?_, by rw [hcount]; rfl⟩
    unfold Held
    rw [hsession, hcount]
    decide
  | already hsession => exact ⟨hheld, rfl⟩
  | refused hnone hcount => exact ⟨hheld, rfl⟩
  | ended hnone hcount =>
    refine ⟨?_, by rw [hcount]; rfl⟩
    unfold Held
    rw [hnone, hcount]
    decide
  | retained hsession hcount =>
    have hpos : c.references.toNat ≠ 0 := toNat_ne_zero (hheld.mp hsession)
    refine ⟨held_of_session hsession (hcount ▸ Nat.succ_ne_zero _), ?_⟩
    show _ = if c.references.toNat = 0 then 0 else c.references.toNat + 1
    rw [if_neg hpos, hcount]
  | unretained hnone =>
    have hzero := hheld.eq_zero hnone
    refine ⟨hheld, ?_⟩
    rw [hzero]
    rfl
  | released hsession hmore hcount =>
    refine ⟨held_of_session hsession (Nat.one_le_iff_ne_zero.mp hmore), ?_⟩
    show _ = c.references.toNat - 1
    exact Nat.eq_sub_of_add_eq hcount
  | last hsession hlast hnone hcount =>
    refine ⟨?_, by rw [hcount, hlast]; rfl⟩
    unfold Held
    rw [hnone, hcount]
    decide
  | unreleased hnone =>
    have hzero := hheld.eq_zero hnone
    refine ⟨hheld, ?_⟩
    rw [hzero]
    rfl
  | kept hop hsession hcount =>
    refine ⟨?_, ?_⟩
    · unfold Held
      rw [hsession, hcount]
      exact hheld
    · rw [hcount]
      cases op <;> first | rfl | exact absurd hop (by simp [Operation.holding])

/-! ### Every call -/

section

variable (engines : Engines S F) {c c' : Context S F}

theorem init_tenure (h : c.Held) {channels nearRate farRate delay : Nat}
    {r : Except Error InitStatus}
    (hinit : c.init engines channels nearRate farRate delay = .ok (c', r)) :
    c.Tenure (.init channels nearRate farRate delay) (.status r) c' := by
  unfold init at hinit
  by_cases hsession : c.session.isSome = true
  · rw [if_pos hsession] at hinit
    obtain ⟨rfl, rfl⟩ := Prod.mk.inj (Except.ok.inj hinit)
    exact .already hsession
  rw [if_neg hsession] at hinit
  have hnone : c.isInitialized = false := Bool.eq_false_iff.mpr hsession
  obtain ⟨made, -, hinit⟩ := bind_eq_ok.mp hinit
  cases made with
  | error e =>
    obtain ⟨rfl, rfl⟩ := Prod.mk.inj (Except.ok.inj hinit)
    exact .refused hnone (h.eq_zero hnone)
  | ok s =>
    obtain ⟨rfl, rfl⟩ := Prod.mk.inj (Except.ok.inj hinit)
    exact .begun hnone rfl rfl

theorem fini_references (c : Context S F) : c.fini.references = 0 := by
  unfold fini
  cases c.session <;> rfl

theorem fini_isInitialized (c : Context S F) : c.fini.isInitialized = false := by
  show c.fini.session.isSome = false
  rw [fini_session]
  rfl

/-- Unless the counter wraps, a reference is taken if there is a session. -/
theorem retain_tenure (hfits : c.references.toNat + 1 < 2 ^ 64) :
    c.Tenure .retain (.references c.retain.2) c.retain.1 := by
  unfold retain
  by_cases hnone : c.session.isNone = true
  · rw [if_pos hnone]
    refine .unretained ?_
    show c.session.isSome = false
    rw [Option.isNone_iff_eq_none.mp hnone]
    rfl
  · rw [if_neg hnone]
    refine .retained ?_ ?_
    · show c.session.isSome = true
      rwa [← Option.not_isNone, Bool.not_eq_true', ← Bool.not_eq_true]
    · rw [UInt64.toNat_add]
      exact Nat.mod_eq_of_lt hfits

theorem release_tenure (h : c.Held) : c.Tenure .release (.references c.release.2) c.release.1 := by
  unfold release
  by_cases hnone : c.references = 0
  · rw [if_pos hnone]
    refine .unreleased ?_
    by_contra hsession
    exact h.mp (Bool.eq_true_of_not_eq_false hsession) hnone
  rw [if_neg hnone]
  have hsession : c.isInitialized = true := h.mpr hnone
  by_cases hlast : c.references - 1 = 0
  · rw [if_pos hlast]
    exact .last hsession ((UInt64.sub_left_inj 1).mp hlast) c.fini_isInitialized c.fini_references
  · rw [if_neg hlast]
    have hpos : 1 ≤ c.references.toNat := Nat.one_le_iff_ne_zero.mpr (toNat_ne_zero hnone)
    have hcount : (c.references - 1).toNat = c.references.toNat - 1 :=
      UInt64.toNat_sub_of_le _ _ (UInt64.le_iff_toNat_le.mpr hpos)
    refine .released hsession (Nat.one_le_iff_ne_zero.mpr (toNat_ne_zero hlast)) ?_
    rw [hcount]
    exact Nat.sub_add_cancel hpos

/-- A call that leaves the session, or the lack of one, and the counter alone. -/
def Steady (c c' : Context S F) : Prop :=
  c'.isInitialized = c.isInitialized ∧ c'.references = c.references

theorem reset_steady (c : Context S F) : c.Steady (c.reset engines).1 := by
  unfold reset
  cases hs : c.session with
  | none => exact ⟨rfl, rfl⟩
  | some s =>
    refine ⟨?_, rfl⟩
    show true = c.session.isSome
    rw [hs]
    rfl

/-- A reset of a session that replaces another one. -/
theorem refit_steady {w : Context S F} {s t : Session F} (hs : c.session = some s)
    (hw : w.session = some t) (hcount : w.references = c.references) :
    c.Steady (w.reset engines).1 := by
  obtain ⟨hsession, hreferences⟩ := w.reset_steady engines
  refine ⟨?_, hreferences.trans hcount⟩
  rw [hsession]
  show w.session.isSome = c.session.isSome
  rw [hw, hs]
  rfl

theorem setFarendInfo_steady {rate channels : Nat} {r : Except Error Unit}
    (h : c.setFarendInfo engines rate channels = .ok (c', r)) : c.Steady c' := by
  unfold setFarendInfo at h
  cases hs : c.session with
  | none =>
    rw [hs] at h
    obtain ⟨rfl, -⟩ := Prod.mk.inj (Except.ok.inj h)
    exact ⟨rfl, rfl⟩
  | some s =>
    rw [hs] at h
    obtain ⟨changed, -, h⟩ := bind_eq_ok.mp h
    cases changed with
    | error e =>
      obtain ⟨rfl, -⟩ := Prod.mk.inj (Except.ok.inj h)
      exact ⟨rfl, rfl⟩
    | ok t =>
      obtain rfl : _ = c' := congrArg Prod.fst (Except.ok.inj h)
      exact refit_steady engines hs rfl rfl

theorem setNearendInfo_steady {rate channels : Nat} {r : Except Error Unit}
    (h : c.setNearendInfo engines rate channels = .ok (c', r)) : c.Steady c' := by
  unfold setNearendInfo at h
  cases hs : c.session with
  | none =>
    rw [hs] at h
    obtain ⟨rfl, -⟩ := Prod.mk.inj (Except.ok.inj h)
    exact ⟨rfl, rfl⟩
  | some s =>
    rw [hs] at h
    obtain ⟨changed, -, h⟩ := bind_eq_ok.mp h
    cases changed with
    | error e =>
      obtain ⟨rfl, -⟩ := Prod.mk.inj (Except.ok.inj h)
      exact ⟨rfl, rfl⟩
    | ok t =>
      obtain rfl : _ = c' := congrArg Prod.fst (Except.ok.inj h)
      exact refit_steady engines hs rfl rfl

theorem setDelay_steady (c : Context S F) (delay : Nat) : c.Steady (c.setDelay delay).1 := by
  unfold setDelay
  cases hs : c.session with
  | none => exact ⟨rfl, rfl⟩
  | some s =>
    refine ⟨?_, rfl⟩
    show true = c.session.isSome
    rw [hs]
    rfl

theorem setEchoSettings_steady (c : Context S F) (settings : EchoSettings) :
    c.Steady (c.setEchoSettings engines settings) := by
  unfold setEchoSettings
  cases hs : c.session with
  | none =>
    refine ⟨?_, rfl⟩
    show c.session.isSome = c.session.isSome
    rfl
  | some s =>
    refine ⟨?_, rfl⟩
    show true = c.session.isSome
    rw [hs]
    rfl

theorem push_steady (c : Context S F) (bytes : List UInt8) :
    c.Steady (c.pushFarend bytes).1 ∧ c.Steady (c.pushNearend bytes).1 := by
  rcases c.open_or_closed with ⟨s, hs, hrun⟩ | hclosed
  · obtain ⟨w, hfarend⟩ := pushFarend_open hs hrun bytes
    obtain ⟨w', hnearend⟩ := pushNearend_open hs hrun bytes
    have hsome : true = c.isInitialized := by
      show true = c.session.isSome
      rw [hs]
      rfl
    rw [hfarend, hnearend]
    exact ⟨⟨hsome, rfl⟩, hsome, rfl⟩
  · obtain ⟨⟨hfarend, -⟩, hnearend, -⟩ := push_closed hclosed bytes
    rw [hfarend, hnearend]
    exact ⟨⟨rfl, rfl⟩, rfl, rfl⟩

variable [Sample S]

/-- A call that has nothing to do with holding a session. -/
theorem apply_steady {op : Operation} {answer : Answer} (hop : op.holding = false)
    (happly : c.apply engines op = .ok (c', answer)) : c.Steady c' := by
  cases op with
  | init | fini | retain | release => exact absurd hop (by simp [Operation.holding])
  | reset => exact (Prod.mk.inj (Except.ok.inj happly)).1 ▸ c.reset_steady engines
  | setFarendReady ready => exact (Prod.mk.inj (Except.ok.inj happly)).1 ▸ ⟨rfl, rfl⟩
  | setNearendReady ready => exact (Prod.mk.inj (Except.ok.inj happly)).1 ▸ ⟨rfl, rfl⟩
  | setStageEnabled stage enabled => exact (Prod.mk.inj (Except.ok.inj happly)).1 ▸ ⟨rfl, rfl⟩
  | setFarendInfo rate channels =>
    obtain ⟨r, hr, hc'⟩ := map_eq_ok.mp happly
    exact (Prod.mk.inj hc').1 ▸ setFarendInfo_steady engines hr
  | setNearendInfo rate channels =>
    obtain ⟨r, hr, hc'⟩ := map_eq_ok.mp happly
    exact (Prod.mk.inj hc').1 ▸ setNearendInfo_steady engines hr
  | setDelay delay => exact (Prod.mk.inj (Except.ok.inj happly)).1 ▸ c.setDelay_steady delay
  | setEchoSettings settings =>
    exact (Prod.mk.inj (Except.ok.inj happly)).1 ▸ c.setEchoSettings_steady engines settings
  | flush => exact (Prod.mk.inj (Except.ok.inj happly)).1 ▸ ⟨Option.isSome_map, rfl⟩
  | pushFarend bytes => exact (Prod.mk.inj (Except.ok.inj happly)).1 ▸ (c.push_steady bytes).1
  | pushNearend bytes => exact (Prod.mk.inj (Except.ok.inj happly)).1 ▸ (c.push_steady bytes).2
  | process farend nearend out =>
    obtain ⟨r, hr, hc'⟩ := map_eq_ok.mp happly
    rcases process_cases engines hr with ⟨-, rfl⟩ | ⟨s, t, events, hs, -, hr⟩
    · exact (Prod.mk.inj hc').1 ▸ ⟨rfl, rfl⟩
    · rw [← (Prod.mk.inj hc').1, hr]
      exact ⟨by simp [isInitialized, hs], rfl⟩
  | tryProcess dest =>
    obtain ⟨r, hr, hc'⟩ := map_eq_ok.mp happly
    rcases tryProcess_cases engines hr with ⟨-, rfl⟩ | ⟨s, t, events, hs, -, hr⟩
    · exact (Prod.mk.inj hc').1 ▸ ⟨rfl, rfl⟩
    · rw [← (Prod.mk.inj hc').1, hr]
      exact ⟨by simp [isInitialized, hs], rfl⟩

/-- Unless a reference more does not fit, every call is one of those listed. -/
theorem apply_tenure {op : Operation} {answer : Answer} (h : c.Held)
    (hfits : op = .retain → c.references.toNat + 1 < 2 ^ 64)
    (happly : c.apply engines op = .ok (c', answer)) : c.Tenure op answer c' := by
  by_cases hop : op.holding = false
  · obtain ⟨hsession, hcount⟩ := apply_steady engines hop happly
    exact .kept hop hsession hcount
  cases op with
  | init channels nearRate farRate delay =>
    obtain ⟨⟨d, r⟩, hr, hc'⟩ := map_eq_ok.mp happly
    obtain ⟨rfl, rfl⟩ := Prod.mk.inj hc'
    exact init_tenure engines h hr
  | fini =>
    obtain ⟨rfl, rfl⟩ := Prod.mk.inj (Except.ok.inj happly)
    exact .ended c.fini_isInitialized c.fini_references
  | retain =>
    obtain ⟨rfl, rfl⟩ := Prod.mk.inj (Except.ok.inj happly)
    exact retain_tenure (hfits rfl)
  | release =>
    obtain ⟨rfl, rfl⟩ := Prod.mk.inj (Except.ok.inj happly)
    exact release_tenure h
  | _ => exact absurd rfl hop

end

/-! ### Runs -/

variable {engines : Engines S F} {c c' : Context S F} [Sample S]

/-- The counter is the tally of what was called. -/
structure Counted (c : Context S F) (t : Transcript) : Prop where
  held : c.Held
  count : c.references.toNat = t.held

/-- A call is one of those listed, if the references that are held afterwards fit. -/
theorem Counted.tenure {t : Transcript} {op : Operation} {answer : Answer} (h : Counted c t)
    (hfits : Transcript.held (t ++ [(op, answer)]) < 2 ^ 64)
    (happly : c.apply engines op = .ok (c', answer)) : c.Tenure op answer c' := by
  refine apply_tenure engines h.held ?_ happly
  rintro rfl
  rw [Transcript.held_concat, ← h.count] at hfits
  by_cases hzero : c.references.toNat = 0
  · omega
  · rwa [Transcript.tally, if_neg hzero] at hfits

theorem Counted.apply {t : Transcript} {op : Operation} {answer : Answer} (h : Counted c t)
    (hfits : Transcript.held (t ++ [(op, answer)]) < 2 ^ 64)
    (happly : c.apply engines op = .ok (c', answer)) : Counted c' (t ++ [(op, answer)]) := by
  obtain ⟨hheld, hcount⟩ := (h.tenure hfits happly).keeps h.held
  refine ⟨hheld, ?_⟩
  rw [Transcript.held_concat, hcount, h.count]

theorem run_counted {settings : Settings} {factory : F.Factory} {ops : List Operation}
    {t : Transcript} (hrun : (new settings factory).run engines ops = .ok (c, t))
    (hfits : ∀ u, u <+: t → Transcript.held u < 2 ^ 64) : Counted c t := by
  have hnew : Counted (new settings factory : Context S F) [] :=
    ⟨by simp [Held, isInitialized, new], rfl⟩
  refine run_keeps engines
    (I := fun c t => (∀ u, u <+: t → Transcript.held u < 2 ^ 64) → Counted c t) (t := [])
    ?_ (fun _ => hnew) hrun hfits
  intro c t op c' answer _ h happly hfits
  have hbefore : Counted c t := h fun u hu => hfits u (hu.trans (List.prefix_append t _))
  exact hbefore.apply (hfits _ List.prefix_rfl) happly

/-- Whatever was called, with never more references held than a word can count: the counter of the
context is the number of references held; there is a session exactly if it is at least one; while
there is, the counter is one more than the references taken since it began, less those given up; and
the next call, if a reference more still fits, is one of those listed in `Tenure`. A session that is
there refuses to begin again. -/
theorem references_counted {settings : Settings} {factory : F.Factory} {ops : List Operation}
    {t : Transcript} (hrun : (new settings factory).run engines ops = .ok (c, t))
    (hfits : ∀ u, u <+: t → Transcript.held u < 2 ^ 64) :
    c.references.toNat = Transcript.held t ∧
      (c.isInitialized = true ↔ 1 ≤ c.references.toNat) ∧
      (c.isInitialized = true →
        ∃ (before since : Transcript) (call : Operation × Answer), t = before ++ call :: since ∧
          Transcript.Begins call ∧ (∀ x ∈ since, ¬ Transcript.Begins x ∧ x.1 ≠ .fini) ∧
          c.references.toNat + since.countP (·.1 = .release) = 1 + since.countP (·.1 = .retain)) ∧
      (c.isInitialized = true → ∀ channels nearRate farRate delay,
        c.apply engines (.init channels nearRate farRate delay) =
          .ok (c, .status (.ok .alreadyInitialized))) ∧
      ∀ op c' answer, c.apply engines op = .ok (c', answer) →
        Transcript.held (t ++ [(op, answer)]) < 2 ^ 64 → c.Tenure op answer c' := by
  have h := run_counted hrun hfits
  have hiff : c.isInitialized = true ↔ 1 ≤ c.references.toNat := by
    rw [show c.isInitialized = true ↔ c.references ≠ 0 from h.held]
    constructor
    · intro hne
      exact Nat.one_le_iff_ne_zero.mpr (toNat_ne_zero hne)
    · intro hpos hzero
      rw [hzero] at hpos
      exact absurd hpos (by decide)
  refine ⟨h.count, hiff, ?_, ?_, ?_⟩
  · intro hsession
    rw [h.count]
    exact Transcript.held_since (h.count ▸ hiff.mp hsession)
  · intro hsession channels nearRate farRate delay
    have hsame : c.init engines channels nearRate farRate delay =
        .ok (c, .ok .alreadyInitialized) := if_pos hsession
    rw [apply, hsame]
    rfl
  · intro op c' answer happly hfits
    exact h.tenure hfits happly

/-- Two references are taken and one given up: two are held, and the last release but one leaves
the session alone. -/
theorem references_counted_retained :
    ∃ (c c' : Context Int16 Engine.Bypass.family) (t : Transcript),
      (new {} ()).run (Engine.Bypass.engines Int16 48000)
          [.init 1 16000 16000 0, .retain, .reset, .retain, .release] = .ok (c, t) ∧
        (∀ u, u <+: t → Transcript.held u < 2 ^ 64) ∧ c.references.toNat = Transcript.held t ∧
        c.isInitialized = true ∧ 1 ≤ c.references.toNat ∧
        c.apply (Engine.Bypass.engines Int16 48000) .release = .ok (c', .references 1) ∧
        Transcript.held (t ++ [(.release, .references 1)]) < 2 ^ 64 ∧
        c.Tenure .release (.references 1) c' := by
  obtain ⟨c, c', t, hrun, hsession, hnext, hlength⟩ :
      ∃ (c c' : Context Int16 Engine.Bypass.family) (t : Transcript),
        (new {} ()).run (Engine.Bypass.engines Int16 48000)
            [.init 1 16000 16000 0, .retain, .reset, .retain, .release] = .ok (c, t) ∧
          c.isInitialized = true ∧
          c.apply (Engine.Bypass.engines Int16 48000) .release = .ok (c', .references 1) ∧
          t.length = 5 := ⟨_, _, _, rfl, rfl, rfl, rfl⟩
  have hfits : ∀ u, u <+: t → Transcript.held u < 2 ^ 64 := by
    intro u hu
    have hle := (Transcript.held_le_length u).trans hu.length_le
    omega
  have hafter : Transcript.held (t ++ [(.release, .references 1)]) < 2 ^ 64 := by
    have hle := Transcript.held_le_length (t ++ [(.release, .references 1)])
    rw [List.length_append, hlength] at hle
    exact lt_of_le_of_lt hle (by decide)
  obtain ⟨hcount, hiff, -, -, hnextCall⟩ := references_counted hrun hfits
  exact ⟨c, c', t, hrun, hfits, hcount, hsession, hiff.mp hsession, hnext, hafter,
    hnextCall _ _ _ hnext hafter⟩

end Context

end Duplex

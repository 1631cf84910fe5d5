import Duplex.Proofs.Context

/-!
# Streaming: buffered processing frame by frame

`FrameStep` is what happens to one buffered frame: it is taken off the intakes, processed and
converted to output bytes. `Frames` is a run of such steps. A call of `tryProcess` is a run of steps
that goes on until the destination can be filled or the nearend runs short (`Drains`), and then hands
out the front of what is pending (`tryProcess_drains`). Whatever one step keeps, every call keeps.
-/

namespace Duplex

open Signal Engine

variable {S : Type} {F : Family} [Sample S] (engines : Engines S F)

namespace Session

/-- One buffered frame becomes output bytes. -/
inductive FrameStep (settings : FrameSettings) (s : Session F) :
    List UInt8 → Session F → Prop where
  | intro {u : Session F} {journal : Journal S} {out : List Int16}
    (full : s.frameBytes ≤ s.nearend.ring.avail)
    (process : (s.readFrame (S := S)).1.process engines settings (some (s.readFrame (S := S)).2.2.1)
      (s.readFrame (S := S)).2.2.2 (List.replicate s.frameLength 0) =
        .ok (u, journal, out, .ok s.frameLength))
    (advanced : (s.readFrame (S := S)).1.Advanced u) (length : out.length = s.frameLength)
    (converted : (u.convertOutput out).2.2 = .ok ()) :
    FrameStep settings s (u.convertOutput out).2.1 (u.convertOutput out).1

/-- Buffered frames become output bytes one after another. -/
inductive Frames (settings : FrameSettings) : Session F → List UInt8 → Session F → Prop where
  | nil (s : Session F) : Frames settings s [] s
  | cons {s t u : Session F} {bytes rest : List UInt8} (step : s.FrameStep engines settings bytes t)
    (more : Frames settings t rest u) : Frames settings s (bytes ++ rest) u

/-- The loop of buffered processing, with so many bytes missing: as long as any are and there is a
nearend frame, it is processed. The output of each frame is kept apart. -/
inductive Drains (settings : FrameSettings) :
    (missing : Nat) → Session F → List (List UInt8) → Session F → Prop where
  | done {missing : Nat} {s : Session F}
    (stop : missing = 0 ∨ s.nearend.ring.avail < s.frameBytes) : Drains settings missing s [] s
  | frame {missing : Nat} {s t u : Session F} {bytes : List UInt8} {outs : List (List UInt8)}
    (wanted : 0 < missing) (step : s.FrameStep engines settings bytes t)
    (rest : Drains settings (missing - bytes.length) t outs u) :
    Drains settings missing s (bytes :: outs) u

variable {engines} {settings : FrameSettings} {s t : Session F} {bytes : List UInt8}

theorem FrameStep.full (h : s.FrameStep engines settings bytes t) :
    s.frameBytes ≤ s.nearend.ring.avail := by
  cases h with
  | intro full => exact full

theorem FrameStep.kin (h : s.FrameStep engines settings bytes t) : s.Kin t := by
  cases h with
  | intro full process advanced length converted =>
    exact ((kin_readFrame s).trans advanced.kin).trans (kin_convertOutput _ _)

theorem Frames.kin (h : Frames engines settings s bytes t) : s.Kin t := by
  induction h with
  | nil s => exact .refl s
  | cons step more ih => exact step.kin.trans ih

/-- What a step leaves of the intakes, of what is pending and of the counters. -/
theorem FrameStep.rest (h : s.FrameStep engines settings bytes t) :
    t.farend = (s.farend.read s.frameBytes).1 ∧ t.nearend = (s.nearend.read s.frameBytes).1 ∧
      t.pending = s.pending ∧
      t.stats.droppedFarend = s.stats.droppedFarend ∧
      t.stats.droppedNearend = s.stats.droppedNearend ∧
      t.stats.farendUnderrun =
        s.stats.farendUnderrun + (s.frameBytes - s.farend.ring.avail) := by
  cases h with
  | @intro u journal out full process advanced length converted =>
    rw [readFrame_eq] at advanced
    have hsame := advanced.same
    have hlosses := advanced.losses
    rw [convertOutput_same]
    refine ⟨by rw [hsame], by rw [hsame], by rw [hsame], hlosses.droppedFarend,
      hlosses.droppedNearend, hlosses.farendUnderrun⟩

theorem Frames.pending (h : Frames engines settings s bytes t) : t.pending = s.pending := by
  induction h with
  | nil s => rfl
  | cons step more ih => rw [ih, step.rest.2.2.1]

theorem Frames.lossesLe (h : Frames engines settings s bytes t) : s.stats.LossesLe t.stats := by
  induction h with
  | nil s => exact .refl _
  | cons step more ih =>
    obtain ⟨-, -, -, hfar, hnear, hunderrun⟩ := step.rest
    exact .trans ⟨by omega, by omega, by omega⟩ ih

section Drains

variable {missing : Nat} {outs : List (List UInt8)}

theorem Drains.frames (h : Drains engines settings missing s outs t) :
    Frames engines settings s outs.flatten t := by
  induction h with
  | done stop => exact .nil _
  | frame wanted step rest ih => exact .cons step ih

/-- The loop ends when no byte is missing any more or the nearend runs short. -/
theorem Drains.stops (h : Drains engines settings missing s outs t) :
    missing ≤ outs.flatten.length ∨ t.nearend.ring.avail < s.frameBytes := by
  induction h with
  | done stop =>
    rcases stop with rfl | hshort
    · exact .inl (Nat.zero_le _)
    · exact .inr hshort
  | frame wanted step rest ih =>
    rw [step.kin.frameBytes] at ih
    rw [List.flatten_cons, List.length_append]
    omega

end Drains

/-! ### Calls -/

variable [Sample.Lawful S]

section Calls

variable (hs : s.Sound) (hset : settings.For s.frames s.bands) (hw : s.Works) (hback : s.Returning)

include hs hset hw hback

/-- Producing output is the loop, for which there is budget enough. -/
theorem produce_drains {budget : Nat} (missing : Nat)
    (hbudget : s.nearend.ring.avail / s.frameBytes ≤ budget) :
    Returns (produce engines settings budget missing s) fun made =>
      made.error = none ∧ ∃ outs, Drains engines settings missing s outs made.session ∧
        made.bytes = outs.flatten := by
  have hpos := frameBytes_pos hw.frames_pos
  induction budget generalizing s missing with
  | zero =>
    have hshort := (Nat.div_eq_zero_iff_lt hpos).mp (Nat.le_zero.mp hbudget)
    exact returns_ok ⟨rfl, [], .done (.inr hshort), rfl⟩
  | succ budget ih =>
    by_cases hgo : s.frameBytes ≤ s.nearend.avail ∧ 0 < missing
    · obtain ⟨u, journal, out, hprocess, hadvanced, hlen, hproduce⟩ :=
        produce_succ_of_returning engines hs hset hw hback budget hgo.1 hgo.2
      have hreturns : u.Returning := ((kin_readFrame (S := S) s).trans hadvanced.kin).returning hback
      have hstep : s.FrameStep engines settings (u.convertOutput out).2.1 (u.convertOutput out).1 :=
        .intro hgo.1 hprocess hadvanced hlen (hreturns.convertOutput_ok out)
      have hkin := hstep.kin
      have hbytes : (u.convertOutput out).1.frameBytes = s.frameBytes := hkin.frameBytes
      have havail : (u.convertOutput out).1.nearend.ring.avail =
          s.nearend.ring.avail - s.frameBytes := by
        rw [hstep.rest.2.1]
        exact s.nearend.avail_read s.frameBytes
      have hleft : (u.convertOutput out).1.nearend.ring.avail /
          (u.convertOutput out).1.frameBytes ≤ budget := by
        have hless := Nat.sub_mul_div s.nearend.ring.avail s.frameBytes 1
        rw [Nat.mul_one] at hless
        rw [havail, hbytes, hless]
        omega
      rw [hproduce]
      refine (ih (hkin.sound hs) (hkin.settings hset) (hkin.works hw) (hkin.returning hback) _ hleft
        (hbytes ▸ hpos)).map ?_
      rintro made ⟨herror, outs, hdrains, hmade⟩
      refine ⟨herror, _, .frame hgo.2 hstep hdrains, ?_⟩
      rw [hmade]
      rfl
    · rw [produce, if_pos (by omega)]
      refine returns_ok ⟨rfl, [], .done ?_, rfl⟩
      show missing = 0 ∨ s.nearend.avail < s.frameBytes
      omega

/-- A call runs the loop for the bytes that are not pending yet, and moves the front of what is
pending then over the front of the destination. -/
theorem tryProcess_drains (dest : List UInt8) :
    Returns (s.tryProcess engines settings dest) fun r =>
      ∃ u outs n, Drains engines settings (dest.length - s.pending.length) s outs u ∧
        n = min dest.length (s.pending ++ outs.flatten).length ∧
        r.1 = { u with pending := (s.pending ++ outs.flatten).drop n } ∧
        r.2.2 = ((s.pending ++ outs.flatten).take n ++ dest.drop n, .ok n) := by
  have hbudget : s.nearend.ring.avail / s.frameBytes ≤ s.frameBudget := by
    rw [frameBudget, if_neg (frameBytes_pos hw.frames_pos).ne']
    exact Nat.le_refl _
  rw [tryProcess]
  refine (produce_drains hs hset hw hback (dest.length - s.pending.length) hbudget).bind ?_
  rintro made ⟨herror, outs, hdrains, hbytes⟩
  obtain ⟨out, hout⟩ : ∃ out, s.pending ++ outs.flatten = out := ⟨_, rfl⟩
  have hpending : made.session.pending ++ made.bytes = out := by
    rw [hdrains.frames.pending, hbytes, hout]
  rw [herror, hpending]
  refine returns_ok ⟨made.session, outs, min dest.length out.length, hdrains, by rw [hout], ?_, ?_⟩
  · rw [hout]
  · have hlen : (out.take (min dest.length out.length)).length = min dest.length out.length := by simp
    have hroom : (out.take (min dest.length out.length)).length ≤ dest.length := by omega
    rw [hout]
    show (overlay dest 0 (out.take (min dest.length out.length)), _) = _
    rw [overlay_zero hroom, hlen]

/-- A call is a run of steps; it hands out the front of what is pending, and answers less than it
was asked for only when the nearend ran short. -/
theorem tryProcess_frames (dest : List UInt8) :
    Returns (s.tryProcess engines settings dest) fun r =>
      ∃ t bytes n, Frames engines settings s bytes t ∧
        n = min dest.length (t.pending ++ bytes).length ∧ r.2.2.2 = .ok n ∧
        r.1 = { t with pending := (t.pending ++ bytes).drop n } ∧
        r.2.2.1.take n = (t.pending ++ bytes).take n ∧
        (n < dest.length →
          n = (t.pending ++ bytes).length ∧ t.nearend.ring.avail < s.frameBytes) := by
  refine (tryProcess_drains hs hset hw hback dest).mono ?_
  rintro r ⟨t, outs, n, hdrains, hn, hsession, hanswer⟩
  have hframes := hdrains.frames
  rw [← hframes.pending] at hn hsession hanswer
  refine ⟨t, outs.flatten, n, hframes, hn, by rw [hanswer], hsession, ?_, ?_⟩
  · have hlen : ((t.pending ++ outs.flatten).take n).length = n := by
      rw [List.length_take]
      omega
    rw [hanswer]
    exact List.take_left' hlen
  · intro hshort
    rw [List.length_append, hframes.pending] at hn
    have hstops := hdrains.stops
    refine ⟨by rw [List.length_append, hframes.pending]; omega, hstops.resolve_left (by omega)⟩

end Calls

end Session

/-! ### Transcripts -/

namespace Transcript

/-- The last call was buffered processing that handed out less than it was asked for. -/
def Drained (t : Transcript) : Prop :=
  ∃ dest out n, t.getLast? = some (.tryProcess dest, .bytes out (.ok n)) ∧ n < dest.length

@[simp] theorem taken_nil (d : Direction) : taken d [] = [] := rfl

@[simp] theorem heard_nil : heard [] = [] := rfl

@[simp] theorem taken_append (d : Direction) (t u : Transcript) :
    (t ++ u).taken d = t.taken d ++ u.taken d := List.flatMap_append

@[simp] theorem heard_append (t u : Transcript) : (t ++ u).heard = t.heard ++ u.heard :=
  List.flatMap_append

@[simp] theorem heard_pushFarend (bytes : List UInt8) (r : Except Error Nat) :
    heard [(.pushFarend bytes, .taken r)] = [] := rfl

@[simp] theorem heard_pushNearend (bytes : List UInt8) (r : Except Error Nat) :
    heard [(.pushNearend bytes, .taken r)] = [] := rfl

@[simp] theorem heard_tryProcess (dest out : List UInt8) (n : Nat) :
    heard [(.tryProcess dest, .bytes out (.ok n))] = out.take n := by simp [heard]

@[simp] theorem taken_tryProcess (d : Direction) (dest : List UInt8) (answer : Answer) :
    taken d [(.tryProcess dest, answer)] = [] := rfl

@[simp] theorem taken_pushFarend (d : Direction) (bytes : List UInt8) :
    taken d [(.pushFarend bytes, .taken (.ok bytes.length))] = if d = .farend then bytes else [] := by
  simp [taken]

@[simp] theorem taken_pushNearend (d : Direction) (bytes : List UInt8) :
    taken d [(.pushNearend bytes, .taken (.ok bytes.length))] =
      if d = .nearend then bytes else [] := by
  simp [taken]

omit [Sample S] in
/-- While audio is not taken, pushes take nothing. -/
theorem taken_of_closed {c : Context S F}
    (hclosed : ∀ s, c.session = some s → c.shouldRunEcho = false) (d : Direction)
    (bytes : List UInt8) :
    taken d [(.pushFarend bytes, .taken (c.pushFarend bytes).2)] = [] ∧
      taken d [(.pushNearend bytes, .taken (c.pushNearend bytes).2)] = [] := by
  obtain ⟨⟨-, hfar⟩, -, hnear⟩ := c.push_closed hclosed bytes
  constructor
  · cases hr : (c.pushFarend bytes).2 with
    | error e => rfl
    | ok n =>
      obtain rfl := hfar n hr
      simp [taken]
  · cases hr : (c.pushNearend bytes).2 with
    | error e => rfl
    | ok n =>
      obtain rfl := hnear n hr
      simp [taken]

theorem not_drained_concat {t : Transcript} {op : Operation} {answer : Answer}
    (h : ∀ dest, op ≠ .tryProcess dest) : ¬ (t ++ [(op, answer)]).Drained := by
  rintro ⟨dest, _, _, hlast, -⟩
  rw [List.getLast?_concat, Option.some.injEq, Prod.mk.injEq] at hlast
  exact h dest hlast.1

theorem drained_concat (t : Transcript) (op : Operation) (answer : Answer) :
    (t ++ [(op, answer)]).Drained ↔
      ∃ dest out n, op = .tryProcess dest ∧ answer = .bytes out (.ok n) ∧ n < dest.length := by
  simp [Drained, and_assoc]

end Transcript

end Duplex

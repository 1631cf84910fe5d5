import Duplex.Proofs.PassThrough
import Duplex.Proofs.Staffing

/-!
# Steadiness: echo cancellers that always come up, or never

If neither the making of an echo canceller nor its set-up depends on what it or the factory went
through (`Engines.Steady`), a reset comes to the same whenever it is made: every lane has an echo
canceller, or none has (`Session.Equipped`). Calls that keep the settings keep it so
(`apply_equipped`), so that it is known when a session begins whether its echo cancellation will be
healthy.
-/

namespace Duplex

open Engine

variable {S : Type} {F : Family}

/-- Whether an echo canceller is made, can be set up and takes its settings does not depend on its
state, its number or the state of the factory. -/
structure Engines.Steady (engines : Engines S F) : Prop where
  make : ∃ ok, ∀ factory number, succeeded (engines.makeEcho factory number).2 = ok
  setUp (rate : Nat) : ∃ ok, ∀ e, succeeded (engines.echo.setUp e rate).result = ok
  configure (settings : EchoSettings) :
    ∃ ok, ∀ e, succeeded (engines.echo.configure e settings).result = ok

theorem Engine.Bypass.engines_steady (S : Type) (maxRate : Nat) {R : Resampling} :
    (Bypass.engines S maxRate : Engines S (Bypass.family R)).Steady :=
  ⟨⟨true, fun _ _ => rfl⟩, fun _ => ⟨true, fun _ => rfl⟩, fun _ => ⟨true, fun _ => rfl⟩⟩

/-! ### One lane -/

namespace Workshop

variable {σ : Type} (stage : Stage) {calls : List (Request S × (σ → Reply σ Unit))}

/-- All engines take the calls, or none does, if that holds of each call. -/
theorem setUp_steady
    (hcalls : ∀ call ∈ calls, ∃ ok, ∀ e, succeeded (call.2 e).result = ok) :
    ∃ ok, ∀ (w : Workshop S F) (e : Numbered σ), succeeded (w.setUp stage e calls).2 = ok := by
  induction calls with
  | nil => exact ⟨true, fun _ _ => rfl⟩
  | cons call calls ih =>
    obtain ⟨taken, htaken⟩ := hcalls call List.mem_cons_self
    obtain ⟨others, hothers⟩ := ih fun call hcall => hcalls call (List.mem_cons_of_mem _ hcall)
    refine ⟨taken && others, fun w e => ?_⟩
    have hcall := htaken e.engine
    rw [setUp]
    generalize call.2 e.engine = reply at hcall ⊢
    obtain ⟨engine, result⟩ := reply
    cases result with
    | error error =>
      rw [← show false = taken from hcall]
      rfl
    | ok _ =>
      rw [← show true = taken from hcall, Bool.true_and]
      exact hothers _ _

/-- So it is known what becomes of a slot, if there is an engine in it only where one comes up. -/
theorem refit_steady {make : F.Factory → Nat → F.Factory × Except Engine.Error σ}
    (hmake : ∃ ok, ∀ factory number, succeeded (make factory number).2 = ok)
    (hcalls : ∀ call ∈ calls, ∃ ok, ∀ e, succeeded (call.2 e).result = ok) :
    ∃ ready, ∀ (w : Workshop S F) (slot : Option (Numbered σ)),
      (slot.isSome = true → ready = true) → succeeded (w.refit stage make slot calls).2 = ready := by
  obtain ⟨made, hmade⟩ := hmake
  obtain ⟨taken, htaken⟩ := setUp_steady (F := F) stage hcalls
  refine ⟨made && taken, fun w slot hslot => ?_⟩
  rcases slot with _ | e
  · have hnew := hmade w.factory (w.made.get stage)
    rw [refit, obtain]
    dsimp only
    generalize make w.factory (w.made.get stage) = x at hnew ⊢
    obtain ⟨factory, result⟩ := x
    cases result with
    | error error =>
      rw [← show false = made from hnew]
      rfl
    | ok engine =>
      rw [← show true = made from hnew, Bool.true_and]
      exact htaken _ _
  · have hready : made = true ∧ taken = true := Bool.and_eq_true_iff.mp (hslot rfl)
    rw [hready.1, Bool.true_and]
    exact htaken w e

end Workshop

/-- What a reset for the rate and the settings makes of every lane: it has an echo canceller
afterwards, or it has none. A lane that had one before is out of the question in the second case. -/
def Engines.Readies (engines : Engines S F) (rate : Nat) (settings : EchoSettings) (ready : Bool) :
    Prop :=
  ∀ (w : Workshop S F) (l : Lane F), (l.echo.isSome = true → ready = true) →
    (l.resetEcho engines rate settings w).2.1.echo.isSome = ready

theorem Engines.Steady.readies {engines : Engines S F} (h : engines.Steady) (rate : Nat)
    (settings : EchoSettings) : ∃ ready, engines.Readies rate settings ready := by
  have hcalls : ∀ call ∈ [((.echoSetUp rate : Request S), fun e => engines.echo.setUp e rate),
      (.echoConfigure settings, fun e => engines.echo.configure e settings)],
      ∃ ok, ∀ e, succeeded (call.2 e).result = ok := by
    simp only [List.forall_mem_cons]
    exact ⟨h.setUp rate, h.configure settings, nofun⟩
  obtain ⟨ready, hready⟩ := Workshop.refit_steady (F := F) .echo h.make hcalls
  refine ⟨ready, fun w l hl => ?_⟩
  have hrefit := hready w l.echo hl
  rw [Lane.resetEcho]
  dsimp only
  generalize w.refit .echo engines.makeEcho l.echo _ = r at hrefit ⊢
  obtain ⟨w', result⟩ := r
  cases result <;> exact hrefit

/-! ### All lanes -/

namespace Session

variable {engines : Engines S F} {settings : Settings} {rate : Nat} {ready : Bool} {s t : Session F}

/-- There is an echo canceller on every lane, or on none. -/
def Equipped (ready : Bool) (s : Session F) : Prop := ∀ l ∈ s.lanes, l.echo.isSome = ready

/-- On a lane only the echo canceller's own turn changes the echo canceller. -/
theorem resetLane_echo (engines : Engines S F) (rate : Nat) (settings : Settings)
    (w : Workshop S F) (healthy : PerStage Bool) (l : Lane F) :
    (resetLane engines rate settings w healthy l).2.2.echo =
      (l.resetEcho engines rate (settings.echo.getD {}) w).2.1.echo := rfl

theorem resetLanes_equipped (h : engines.Readies rate (settings.echo.getD {}) ready)
    (w : Workshop S F) (healthy : PerStage Bool) {lanes : List (Lane F)}
    (hlanes : ∀ l ∈ lanes, l.echo.isSome = true → ready = true) :
    ∀ l ∈ (resetLanes engines rate settings w healthy lanes).2.2, l.echo.isSome = ready := by
  induction lanes generalizing w healthy with
  | nil => simp [resetLanes]
  | cons l lanes ih =>
    rw [List.forall_mem_cons] at hlanes
    simp only [resetLanes, List.forall_mem_cons, resetLane_echo]
    exact ⟨h w l hlanes.1, ih _ _ hlanes.2⟩

theorem resetEngines_equipped (h : engines.Readies s.rate (settings.echo.getD {}) ready)
    (w : Workshop S F) (hs : ∀ l ∈ s.lanes, l.echo.isSome = true → ready = true) :
    (s.resetEngines engines settings w).2.Equipped ready :=
  resetLanes_equipped h w (.const true) hs

/-- A reset equips an equipped session again. -/
theorem Equipped.reset (h : engines.Readies s.rate (settings.echo.getD {}) ready)
    (w : Workshop S F) (hs : s.Equipped ready) :
    (s.resetEngines engines settings w).2.Equipped ready :=
  resetEngines_equipped h w fun l hl hsome => (hs l hl).symm.trans hsome

/-- That is a matter of the crews. -/
theorem Equipped.congr (hs : s.Equipped ready) (hcrews : t.crews = s.crews) : t.Equipped ready := by
  have hmem (s : Session F) : s.Equipped ready ↔
      ∀ crew ∈ s.crews, crew.2.echo.isSome = ready := by
    simp only [Equipped, crews, List.forall_mem_map, Lane.crew, Lane.numbers, Option.isSome_map]
  rw [hmem] at hs ⊢
  rwa [hcrews]

/-- Echo cancellation is healthy if echo cancellers come up. -/
theorem Equipped.healthy (hs : s.Equipped ready) (hsound : s.Sound) (hstaffed : s.Staffed) :
    s.healthy.echo = ready := by
  have hiff := hstaffed.healthy .echo
  have hslot : ∀ l ∈ s.lanes, (l.numbers.get .echo).isSome = ready := by
    intro l hl
    rw [← hs l hl]
    exact Option.isSome_map
  obtain ⟨l, lanes, hlanes⟩ := hsound.exists_lane
  have hmem : l ∈ s.lanes := hlanes ▸ List.mem_cons_self
  rw [Bool.eq_iff_iff]
  refine hiff.trans ⟨fun hall => ?_, fun hready l hl => (hslot l hl).trans hready⟩
  exact (hslot l hmem).symm.trans (hall l hmem)

/-- A new session has no echo cancellers, so that a reset equips it. -/
theorem create_equipped {limit channels nearRate farRate delay : Nat}
    (hmade : (create settings limit channels nearRate farRate delay).run = .ok (.ok s))
    (h : engines.Readies s.rate (settings.echo.getD {}) ready) (w : Workshop S F) :
    (s.resetEngines engines settings w).2.Equipped ready := by
  refine resetEngines_equipped h w fun l hl hsome => ?_
  rw [(create_opened hmade).1.lanes] at hl
  obtain ⟨channel, -, rfl⟩ := List.mem_map.mp hl
  simp [Lane.new] at hsome

end Session

/-! ### Calls -/

namespace Context

variable [Sample S] {engines : Engines S F} {c c' : Context S F} {s t : Session F} {ready : Bool}

omit [Sample S] in
/-- A push leaves the crews of the lanes as they are. -/
theorem push_crews (hs : c.session = some s) (bytes : List UInt8) :
    (∀ t, (c.pushFarend bytes).1.session = some t → t.crews = s.crews) ∧
      ∀ t, (c.pushNearend bytes).1.session = some t → t.crews = s.crews := by
  rcases c.open_or_closed with ⟨_, -, hrun⟩ | hclosed
  · obtain ⟨w, hfar⟩ := pushFarend_open hs hrun bytes
    obtain ⟨w', hnear⟩ := pushNearend_open hs hrun bytes
    rw [hfar, hnear]
    constructor <;> rintro t ⟨⟩ <;> rfl
  · rw [(push_closed hclosed bytes).1.1, (push_closed hclosed bytes).2.1, hs]
    constructor <;> rintro t ⟨⟩ <;> rfl

/-- A call that keeps the session and the settings leaves the crews of the lanes as they are, or
resets them. -/
theorem apply_crews (hs : c.session = some s) (hlanes : s.lanes.length = s.layout.channels)
    {op : Operation} (hop : op.Streams) (hsettings : ∀ settings, op ≠ .setEchoSettings settings)
    {answer : Answer} (happly : c.apply engines op = .ok (c', answer)) (ht : c'.session = some t) :
    t.crews = s.crews ∨ ∃ (u : Session F) (w : Workshop S F), u.lanes = s.lanes ∧ u.rate = s.rate ∧
      t = (u.resetEngines engines c.settings w).2 := by
  have hsame {u : Session F} (hu : c'.session = some u) : t = u := Option.some.inj (ht.symm.trans hu)
  cases op with
  | pushFarend bytes =>
    obtain ⟨rfl, -⟩ := Prod.mk.inj (Except.ok.inj happly)
    exact .inl ((push_crews hs bytes).1 t ht)
  | pushNearend bytes =>
    obtain ⟨rfl, -⟩ := Prod.mk.inj (Except.ok.inj happly)
    exact .inl ((push_crews hs bytes).2 t ht)
  | tryProcess dest =>
    obtain ⟨r, hr, hc'⟩ := map_eq_ok.mp happly
    obtain ⟨rfl, -⟩ := Prod.mk.inj hc'
    obtain ⟨hnone, -⟩ | ⟨s', u, journal, hs', hu, hr⟩ := tryProcess_cases engines hr
    · rw [hs] at hnone
      simp at hnone
    obtain rfl : s = s' := Option.some.inj (hs.symm.trans hs')
    rw [hsame (by rw [hr])]
    exact .inl (Session.tryProcess_turned engines hlanes hu).crews
  | reset =>
    have hc' : (c.reset engines).1 = c' := (Prod.mk.inj (Except.ok.inj happly)).1
    exact .inr ⟨s, c.workshop, rfl, rfl, hsame (by rw [← hc', reset, hs]; rfl)⟩
  | setStageEnabled | setFarendReady | setNearendReady =>
    obtain ⟨rfl, -⟩ := Prod.mk.inj (Except.ok.inj happly)
    rw [hsame hs]
    exact .inl rfl
  | setDelay delay =>
    have hc' : (c.setDelay delay).1 = c' := (Prod.mk.inj (Except.ok.inj happly)).1
    rw [hsame (by rw [← hc', setDelay, hs])]
    exact .inl rfl
  | setEchoSettings settings => exact absurd rfl (hsettings settings)
  | setFarendInfo rate channels =>
    obtain ⟨⟨c'', r⟩, hr, hc'⟩ := map_eq_ok.mp happly
    obtain ⟨rfl, -⟩ := Prod.mk.inj hc'
    obtain ⟨rfl, -⟩ | ⟨s', u, w, hs', hchanged, hc', -⟩ := setFarendInfo_changes engines hr
    · rw [hsame hs]
      exact .inl rfl
    obtain rfl : s = s' := Option.some.inj (hs.symm.trans hs')
    obtain ⟨farend, rfl, -⟩ := Session.changeFarend_cases hchanged
    exact .inr ⟨{ s with farend }, w, rfl, rfl, hsame hc'⟩
  | _ => exact hop.elim

/-- So it keeps a session equipped. -/
theorem apply_equipped (hs : c.session = some s) (hlanes : s.lanes.length = s.layout.channels)
    (hready : engines.Readies s.rate (c.settings.echo.getD {}) ready) (h : s.Equipped ready)
    {op : Operation} (hop : op.Streams) (hsettings : ∀ settings, op ≠ .setEchoSettings settings)
    {answer : Answer} (happly : c.apply engines op = .ok (c', answer)) (ht : c'.session = some t) :
    t.Equipped ready := by
  obtain hcrews | ⟨u, w, hlanes, hrate, rfl⟩ := apply_crews hs hlanes hop hsettings happly ht
  · exact h.congr hcrews
  · refine Session.Equipped.reset (hrate ▸ hready) w ?_
    intro l hl
    exact h l (hlanes ▸ hl)

end Context

end Duplex

import Casquinha.Audio.ServiceRuns

/-!
# The last chunk of a listen

The double-back proc serves whole chunks or silence. Once there is no stream it also serves what is left in the
PCM ring, padded to a chunk: "there is nothing left to wait for". It asks for the stream alone, and the
pump may still have a compressed ring and a stage to decode.

A refill of less than a chunk is the end of the audio, in every continuation of the listen (`Finished`), exactly
if it does not overtake the pump, which run on from there puts nothing more (`partialAtEnd_iff`). It does not if
what is pending in the stage and in the compressed ring is left alone: at most 8192 bytes without a whole frame
at their head. Pending bytes of any other kind are used up by the next pass (`pending_pump_iff`). So no silence
is spliced into a listen whose partial refills all find the pump caught up (`no_silence_spliced`).

A pump pass is one step here. A refill in the middle of a pass that finds such bytes pending finds that the pass
has used nothing up, and will not (`pump_of_leftAlone`).
-/

set_option autoImplicit false

namespace Casquinha.Audio

open Lib Decode

variable {σ : Type}

/-! ## Refills -/

/-- What `AudioDoubleBack` takes from the ring. -/
def served (s : Output) : Nat := chunkTake (applyTrim { s with gDBFires := s.gDBFires + 1 })

/-- A partial chunk, padded with zeros. -/
def ServesPartial (s : Output) : Prop := 0 < served s ∧ served s < cqAudChunk

instance (s : Output) : Decidable (ServesPartial s) := inferInstanceAs (Decidable (_ ∧ _))

/-- The engine behind a refill. -/
def refilled (e : Engine σ) : Engine σ := { e with out := (audioDoubleBack e.out).1 }

/-- The pump part of `ServiceAudio`. -/
def servicePump (d : Mp3Decoder σ) (e : Engine σ) : Engine σ := if e.gMPDecode then e else pumpEngine d e

/-- The engine at each refill of a step: one for the hardware, two before the first note. -/
def refills (d : Mp3Decoder σ) (e : Engine σ) : EngineStep σ → List (Engine σ)
  | .doubleBack => if e.out.gPlaying = true then [e] else []
  | .service start =>
      if e.gAuSt = .play ∧ mayStart (servicePump d e).out = true ∧ start ≠ .noChannel then
        [servicePump d e, refilled (servicePump d e)]
      else []
  | .tune | .header | .sync _ _ _ | .drain _ | .die | .pump | .stop => []

/-! ## The law -/

/-- A pump pass puts PCM. -/
def Puts (d : Mp3Decoder σ) (e : Engine σ) : Prop :=
  (pumpEngine d e).out.gDec.pcmTotal ≠ e.out.gDec.pcmTotal

instance (d : Mp3Decoder σ) (e : Engine σ) : Decidable (Puts d e) := inferInstanceAs (Decidable (_ ≠ _))

/-- The step has a pump pass that puts PCM. -/
def Produces (d : Mp3Decoder σ) (e : Engine σ) : EngineStep σ → Prop
  | .pump => Puts d e
  | .service _ => e.gAuSt = .play ∧ e.gMPDecode = false ∧ Puts d e
  | .tune | .header | .sync _ _ _ | .drain _ | .die | .doubleBack | .stop => False

/-- No further PCM is produced in this listen, whatever happens. -/
def Finished (d : Mp3Decoder σ) (e : Engine σ) : Prop :=
  ∀ steps t, Meets (engineStep d) (fun u _ => u.gAuSt = .play) e steps →
    run (engineStep d) e steps = some t → t.gAuSt = .play → ∀ a, ¬ Produces d t a

/-- A refill of the step that serves a partial chunk finds no stream, and the listen is finished behind the
step. -/
def PartialAtEnd (d : Mp3Decoder σ) (e : Engine σ) (a : EngineStep σ) : Prop :=
  ∀ u ∈ refills d e a, ServesPartial u.out →
    u.out.gStream = false ∧ ∀ t, engineStep d e a = some t → Finished d t

/-! ## The condition -/

/-- The bytes in the stage, and behind them those in the compressed ring. -/
def pending (r : CqDecring 32) : Bytes :=
  r.stage ++ ringRead r.compSize.toNat r.comp (r.compRd % r.compSize).toNat (backlog r)

/-- `SndPlayDoubleBuffer` fails, behind both refills. -/
def EngineStep.Refused : EngineStep σ → Prop
  | .service .refused => True
  | .service .noChannel | .service .playing => False
  | .tune | .header | .sync _ _ _ | .drain _ | .die | .pump | .doubleBack | .stop => False

instance : (a : EngineStep σ) → Decidable a.Refused
  | .service .refused => .isTrue trivial
  | .service .noChannel | .service .playing => .isFalse not_false
  | .tune | .header | .sync _ _ _ | .drain _ | .die | .pump | .doubleBack | .stop => .isFalse not_false

/-- A refill of the step that serves a partial chunk finds pending only bytes that the pump leaves alone, unless
the channel is then refused, which ends the listen. -/
def CaughtUp (d : Mp3Decoder σ) (e : Engine σ) (a : EngineStep σ) : Prop :=
  ¬ a.Refused → ∀ u ∈ refills d e a, ServesPartial u.out → LeftAlone (pending u.out.gDec)

instance (d : Mp3Decoder σ) (e : Engine σ) (a : EngineStep σ) : Decidable (CaughtUp d e a) :=
  inferInstanceAs (Decidable (_ → ∀ u ∈ _, _ → _))

/-! ## The pump, run on -/

/-- A pump pass, on the decoder and its rings. -/
def pumpPass (d : Mp3Decoder σ) (x : σ × CqDecring 32) : σ × CqDecring 32 :=
  ((cqDecringPump d x.1 x.2).dec, (cqDecringPump d x.1 x.2).ring)

/-- The rings, with all the PCM read. -/
def emptied (r : CqDecring 32) : CqDecring 32 := { r with pcmRd := r.pcmWr }

/-- The pump, run on with room for PCM, puts nothing more. -/
def NothingHeld (d : Mp3Decoder σ) (dec : σ) (r : CqDecring 32) : Prop :=
  ∀ n, ((pumpPass d)^[n] (dec, emptied r)).2.pcmTotal = r.pcmTotal

/-- A refill of the step that serves a partial chunk does not overtake the pump. -/
def NotOvertaken (d : Mp3Decoder σ) (e : Engine σ) (a : EngineStep σ) : Prop :=
  ¬ a.Refused → ∀ u ∈ refills d e a, ServesPartial u.out → NothingHeld d u.dec u.out.gDec

/-! ## What is pending -/

theorem length_pending (r : CqDecring 32) : (pending r).length = r.stage.length + backlog r := by
  rw [pending, List.length_append, length_ringRead]

theorem length_le_of_leftAlone {xs : Bytes} (h : LeftAlone xs) : xs.length ≤ 8192 := by
  rcases h with rfl | ⟨hshort, -⟩
  · exact Nat.zero_le _
  · exact hshort

/-- The stage has room for pending bytes that are left alone: the top-up stages them all. -/
theorem topUp_of_leftAlone {r : CqDecring 32} (h : LeftAlone (pending r)) :
    topUpTake r = backlog r ∧ (pumpTopUp r).stage = pending r := by
  have hshort := length_le_of_leftAlone h
  rw [length_pending] at hshort
  have htake : topUpTake r = backlog r := by
    rw [topUpTake_eq_min, cqDecringStage]
    omega
  refine ⟨htake, ?_⟩
  rw [pumpTopUp_spec, htake]
  rfl

/-- A pass over pending bytes that are left alone stages them, and the one behind it changes nothing. -/
theorem pump_of_leftAlone (d : Mp3Decoder σ) (dec : σ) {r : CqDecring 32} (heof : r.eof = true)
    (h : LeftAlone (pending r)) :
    pumpPass d (dec, r) = (dec, pumpTopUp r) ∧ pumpPass d (dec, pumpTopUp r) = (dec, pumpTopUp r) := by
  obtain ⟨htake, hstage⟩ := topUp_of_leftAlone h
  have halone : LeftAlone (pumpTopUp r).stage := hstage.symm ▸ h
  obtain ⟨hring, hdec⟩ := pump_eq_topUp d dec heof halone
  have hempty : backlog (pumpTopUp r) = 0 := by
    rw [← hring, backlog_pump, htake, Nat.sub_self]
  have hnone := (pumpTopUp_of_eq (backlog_eq_zero_iff.1 hempty)).1
  have heof' : (pumpTopUp r).eof = true := by
    rw [pumpTopUp_spec]
    exact heof
  obtain ⟨hring', hdec'⟩ := pump_leftAlone d dec hnone heof' halone
  constructor
  · simp only [pumpPass, hring, hdec]
  · simp only [pumpPass, hring', hdec']

/-- **Pending bytes that are left alone hold nothing**: the pump, run on, is its top-up. -/
theorem nothingHeld_of_leftAlone (d : Mp3Decoder σ) (dec : σ) {r : CqDecring 32} (heof : r.eof = true)
    (h : LeftAlone (pending r)) : NothingHeld d dec r := by
  obtain ⟨hfirst, hfixed⟩ := pump_of_leftAlone d dec (r := emptied r) heof h
  intro n
  cases n with
  | zero => rfl
  | succ n =>
      rw [Function.iterate_succ_apply, hfirst, Function.iterate_fixed hfixed, pumpTopUp_spec]
      rfl

/-- What a pass leaves pending is the rest of the stage, and what it had no room to stage. -/
theorem length_pending_pump (d : Mp3Decoder σ) (dec : σ) (r : CqDecring 32) :
    (pending (cqDecringPump d dec r).ring).length + (pumpTopUp r).stage.length =
      (cqDecringPump d dec r).ring.stage.length + (pending r).length := by
  have hstage : (pumpTopUp r).stage.length = r.stage.length + topUpTake r := by
    rw [pumpTopUp_spec]
    simp only
    rw [List.length_append, length_ringRead]
  have hle := topUpTake_le_backlog r
  rw [length_pending, length_pending, backlog_pump, hstage]
  omega

/-- At the end of a stream, with room for PCM: a pass shortens what is pending exactly if that is not left
alone. -/
theorem pending_pump_iff {d : Mp3Decoder σ} (hd : d.Advances) (dec : σ) {r : CqDecring 32}
    (heof : r.eof = true) (hroom : PcmRoom r) :
    (pending (cqDecringPump d dec r).ring).length < (pending r).length ↔ ¬ LeftAlone (pending r) := by
  have hlength := length_pending_pump d dec r
  constructor
  · intro hlt halone
    obtain ⟨-, hstage⟩ := topUp_of_leftAlone halone
    have hring := (pump_eq_topUp d dec heof (hstage.symm ▸ halone)).1
    rw [hring] at hlength hlt
    omega
  · intro halone
    suffices hnot : ¬ LeftAlone (pumpTopUp r).stage by
      have hlt := stage_pump_lt hd dec heof hroom hnot
      omega
    intro hstaged
    -- a stage that is left alone has not been filled, so all that was pending is in it
    have hshort := length_le_of_leftAlone hstaged
    rw [pumpTopUp_spec] at hshort
    simp only at hshort
    rw [List.length_append, length_ringRead, topUpTake_eq_min, cqDecringStage] at hshort
    have htake : topUpTake r = backlog r := by
      rw [topUpTake_eq_min, cqDecringStage]
      omega
    rw [pumpTopUp_spec, htake] at hstaged
    exact halone hstaged

/-! ## What a pass puts -/

/-- The write cursor moves by what is put. -/
theorem put_pumpRound {w : Nat} (d : Mp3Decoder σ) (p : Pass w σ) :
    ∃ n, (pumpRound d p).1.ring.pcmTotal = p.ring.pcmTotal + n ∧
      (pumpRound d p).1.ring.pcmWr = p.ring.pcmWr + BitVec.ofNat w n := by
  rcases pumpRound_ring d p with ⟨n, m, k, hring, -⟩ | ⟨-, out, -, hring, -⟩
  · refine ⟨0, ?_, ?_⟩
    · rw [hring]
      rfl
    · rw [hring]
      exact (BitVec.add_zero _).symm
  · rw [hring]
    exact ⟨out.pcm.length, rfl, rfl⟩

theorem put_pumpLoop {w : Nat} (d : Mp3Decoder σ) :
    ∀ (fuel : Nat) (p : Pass w σ), ∃ n, (pumpLoop d fuel p).ring.pcmTotal = p.ring.pcmTotal + n ∧
      (pumpLoop d fuel p).ring.pcmWr = p.ring.pcmWr + BitVec.ofNat w n := by
  intro fuel
  induction fuel with
  | zero => exact fun p => ⟨0, rfl, (BitVec.add_zero _).symm⟩
  | succ fuel ih =>
      intro p
      obtain ⟨n, htotal, hwr⟩ := put_pumpRound d p
      rw [pumpLoop]
      cases hres : pumpRound d p with
      | mk p' go =>
          rw [hres] at htotal hwr
          cases go with
          | false => exact ⟨n, htotal, hwr⟩
          | true =>
              obtain ⟨m, htotal', hwr'⟩ := ih p'
              refine ⟨n + m, ?_, ?_⟩
              · rw [htotal', htotal, Nat.add_assoc]
              · rw [hwr', hwr, BitVec.ofNat_add, BitVec.add_assoc]

/-- A pass that puts nothing leaves both PCM cursors where they are. -/
theorem pcm_pump {w : Nat} {d : Mp3Decoder σ} {s : σ} {r : CqDecring w}
    (h : (cqDecringPump d s r).ring.pcmTotal = r.pcmTotal) :
    (cqDecringPump d s r).ring.pcmWr = r.pcmWr ∧ (cqDecringPump d s r).ring.pcmRd = r.pcmRd := by
  have hstart : (pumpStart s r).ring.pcmTotal = r.pcmTotal ∧ (pumpStart s r).ring.pcmWr = r.pcmWr ∧
      (pumpStart s r).ring.pcmRd = r.pcmRd := by
    rw [pumpStart, pumpTopUp_spec]
    exact ⟨rfl, rfl, rfl⟩
  obtain ⟨htotal₀, hwr₀, hrd₀⟩ := hstart
  obtain ⟨n, htotal, hwr⟩ := put_pumpLoop d ((pumpStart s r).ring.stage.length + 1) (pumpStart s r)
  have hrd := (pumpLoop_frame d ((pumpStart s r).ring.stage.length + 1) (pumpStart s r)).2.2.1
  simp only [cqDecringPump, pumpFinish] at h ⊢
  have hzero : n = 0 := by omega
  constructor
  · rw [hwr, hwr₀, hzero]
    exact BitVec.add_zero _
  · exact hrd.trans hrd₀

/-! ## A listen that is spent -/

/-- A dead stream, all PCM read, and a pump that puts no more. -/
structure Spent (d : Mp3Decoder σ) (e : Engine σ) : Prop where
  dead : Dead e
  inv : e.Inv
  dry : e.out.gDec.pcmWr = e.out.gDec.pcmRd
  held : ∀ n, ((pumpPass d)^[n] (e.dec, e.out.gDec)).2.pcmTotal = e.out.gDec.pcmTotal

theorem emptied_of_dry {r : CqDecring 32} (h : r.pcmWr = r.pcmRd) : emptied r = r := by
  cases r
  cases h
  rfl

/-- A pump pass of the engine is a pass on the decoder and its rings. -/
theorem pumpPass_engine (d : Mp3Decoder σ) (e : Engine σ) :
    pumpPass d (e.dec, e.out.gDec) = ((pumpEngine d e).dec, (pumpEngine d e).out.gDec) := by
  simp only [pumpPass, pumpEngine]

theorem Spent.total_pump {d : Mp3Decoder σ} {e : Engine σ} (h : Spent d e) :
    (pumpEngine d e).out.gDec.pcmTotal = e.out.gDec.pcmTotal := by
  have hheld := h.held 1
  rw [Function.iterate_one, pumpPass_engine] at hheld
  exact hheld

theorem Spent.pump {d : Mp3Decoder σ} {e : Engine σ} (h : Spent d e) : Spent d (pumpEngine d e) := by
  have hnone := h.total_pump
  refine ⟨h.dead, h.inv.pump d, ?_, ?_⟩
  · obtain ⟨hwr, hrd⟩ := pcm_pump hnone
    exact hwr.trans (h.dry.trans hrd.symm)
  · intro n
    have hheld := h.held (n + 1)
    rw [Function.iterate_succ_apply, pumpPass_engine] at hheld
    rw [hheld, hnone]

theorem Spent.not_puts {d : Mp3Decoder σ} {e : Engine σ} (h : Spent d e) : ¬ Puts d e :=
  not_not_intro h.total_pump

theorem Spent.servicePump {d : Mp3Decoder σ} {e : Engine σ} (h : Spent d e) :
    Spent d (servicePump d e) := by
  rw [Audio.servicePump]
  split
  · exact h
  · exact h.pump

/-- The output stage may change, if it leaves the rings and the stream. -/
theorem Spent.of_out {d : Mp3Decoder σ} {e : Engine σ} (h : Spent d e) {out : Output}
    (hstream : out.gStream = e.out.gStream) (hdec : out.gDec = e.out.gDec) :
    Spent d { e with out := out } := by
  refine ⟨⟨h.dead.1, hstream.trans h.dead.2⟩, ?_, ?_, ?_⟩
  · exact h.inv.of_same rfl hstream (congrArg CqDecring.pcmSize hdec) (congrArg CqDecring.eof hdec)
  · show out.gDec.pcmWr = out.gDec.pcmRd
    rw [hdec]
    exact h.dry
  · show ∀ n, ((pumpPass d)^[n] (e.dec, out.gDec)).2.pcmTotal = out.gDec.pcmTotal
    rw [hdec]
    exact h.held

/-- A refill from an empty ring leaves the rings. -/
theorem gDec_refilled_of_dry {s : Output} (h : s.gDec.pcmWr = s.gDec.pcmRd) :
    (audioDoubleBack s).1.gDec = s.gDec := by
  obtain ⟨-, -, hdec⟩ := audioDoubleBack_frame s
  have hfill := ringFill_audioDoubleBack_le s
  rw [ringFill_of_eq h] at hfill
  have hdry := eq_of_sub_zero (Nat.le_zero.1 hfill)
  have hrd : (audioDoubleBack s).1.gDec.pcmRd = s.gDec.pcmRd := by
    rw [← hdry, hdec]
    exact h
  rw [hdec, hrd]

/-- `ServiceAudio` has nothing to start, and leaves the rings unless it ends the listen. -/
theorem Spent.service {d : Mp3Decoder σ} {e : Engine σ} (h : Spent d e) (start : SoundStart)
    (hplay : (serviceAudio d start e).gAuSt = .play) : Spent d (serviceAudio d start e) := by
  have hpumped := h.servicePump
  have hstart : mayStart (Audio.servicePump d e).out = false := by
    rw [mayStart, ringFill_of_eq hpumped.dry]
    simp [cqAudPrebufPcm]
  obtain ⟨hstream, -, hdec⟩ := latencyTrim_frame (Audio.servicePump d e).out
  have hserve : serviceAudio d start e = trimOrExit (Audio.servicePump d e) := by
    rw [serviceAudio, if_pos h.dead.1]
    show trimOrExit (startOutput start (Audio.servicePump d e)) = _
    rw [startOutput, hstart]
    rfl
  rw [hserve, trimOrExit, if_pos hpumped.dead.1] at hplay ⊢
  dsimp only at hplay ⊢
  split at hplay
  · cases hplay
  · next hexit =>
    rw [if_neg hexit]
    exact hpumped.of_out hstream hdec

/-- **Every step** within the listen leaves it spent. -/
theorem Spent.step {d : Mp3Decoder σ} {e t : Engine σ} {a : EngineStep σ} (h : Spent d e)
    (ht : engineStep d e a = some t) (hplay : t.gAuSt = .play) : Spent d t := by
  have hphase : ∀ {st : App.AuState}, e.gAuSt = st → st = .play := fun heq => heq.symm.trans h.dead.1
  cases a with
  | tune =>
      simp only [engineStep, Option.ite_none_right_eq_some] at ht
      exact absurd (hphase ht.1) (by decide)
  | header =>
      simp only [engineStep, Option.ite_none_right_eq_some] at ht
      exact absurd (hphase ht.1) (by decide)
  | sync init mpDecode gComp =>
      simp only [engineStep, Option.ite_none_right_eq_some] at ht
      exact absurd (hphase ht.1.1) (by decide)
  | drain xs =>
      simp only [engineStep, Option.ite_none_right_eq_some] at ht
      exact absurd (h.dead.2.symm.trans ht.1.2.1) Bool.false_ne_true
  | die =>
      simp only [engineStep, Option.ite_none_right_eq_some] at ht
      exact absurd (h.dead.2.symm.trans ht.1) Bool.false_ne_true
  | pump =>
      simp only [engineStep, Option.ite_none_right_eq_some, Option.some.injEq] at ht
      obtain ⟨-, rfl⟩ := ht
      exact h.pump
  | doubleBack =>
      simp only [engineStep, Option.ite_none_right_eq_some, Option.some.injEq] at ht
      obtain ⟨-, rfl⟩ := ht
      exact h.of_out (audioDoubleBack_frame e.out).1 (gDec_refilled_of_dry h.dry)
  | service start =>
      cases ht
      exact h.service start hplay
  | stop =>
      cases ht
      cases hplay

/-! ## Finished listens -/

theorem finished_of_not_play {d : Mp3Decoder σ} {e : Engine σ} (h : e.gAuSt ≠ .play) : Finished d e := by
  intro steps t hmeets hrun ht
  cases steps with
  | nil =>
      cases hrun
      exact absurd ht h
  | cons a steps => exact absurd hmeets.1 h

/-- **A spent listen is finished.** -/
theorem Spent.finished {d : Mp3Decoder σ} {e : Engine σ} (h : Spent d e) : Finished d e := by
  intro steps t hmeets hrun ht a hproduces
  have hspent : Spent d t := by
    clear hproduces
    induction steps generalizing e with
    | nil =>
        cases hrun
        exact h
    | cons b steps ih =>
        obtain ⟨u, hu, hrest⟩ := Option.bind_eq_some_iff.1 hrun
        have hplay : u.gAuSt = .play := by
          have hlater := hmeets.2 u hu
          cases steps with
          | nil =>
              cases hrest
              exact ht
          | cons c steps => exact hlater.1
        exact ih (h.step hu hplay) (hmeets.2 u hu) hrest
  cases a with
  | pump => exact hspent.not_puts hproduces
  | service start => exact hspent.not_puts hproduces.2.2
  | tune | header | sync init mpDecode gComp | drain xs | die | doubleBack | stop => exact hproduces

theorem Finished.pump {d : Mp3Decoder σ} {e : Engine σ} (h : Finished d e) (hplay : e.gAuSt = .play) :
    Finished d (pumpEngine d e) := by
  have hstep : engineStep d e .pump = some (pumpEngine d e) := by
    rw [engineStep, if_pos hplay]
  intro steps t hmeets hrun
  apply h (.pump :: steps) t
  · refine ⟨hplay, ?_⟩
    intro u hu
    cases hstep.symm.trans hu
    exact hmeets
  · rw [run_cons, hstep]
    exact hrun

/-- In a finished listen the pump, run on, puts nothing: its passes are steps of the listen. -/
theorem Finished.held {d : Mp3Decoder σ} {e : Engine σ} (h : Finished d e) (hplay : e.gAuSt = .play)
    (n : Nat) : ((pumpPass d)^[n] (e.dec, e.out.gDec)).2.pcmTotal = e.out.gDec.pcmTotal := by
  induction n generalizing e with
  | zero => rfl
  | succ n ih =>
      have hnone : ¬ Puts d e := h [] e trivial rfl hplay .pump
      rw [Function.iterate_succ_apply, pumpPass_engine, ih (h.pump hplay) hplay]
      exact not_not.1 hnone

/-- **A dead listen whose PCM is all read is finished** exactly if nothing is held. -/
theorem finished_iff_nothingHeld (d : Mp3Decoder σ) {e : Engine σ} (hdead : Dead e) (hinv : e.Inv)
    (hdry : e.out.gDec.pcmWr = e.out.gDec.pcmRd) : Finished d e ↔ NothingHeld d e.dec e.out.gDec := by
  rw [NothingHeld, emptied_of_dry hdry]
  exact ⟨fun h n => h.held hdead.1 n, fun h => (Spent.mk hdead hinv hdry h).finished⟩

/-! ## Partial refills -/

/-- Less than a chunk, and not nothing, is taken of a dead stream alone, and is all there is. -/
theorem chunkTake_of_lt_chunk {s : Output} (hpos : 0 < chunkTake s) (hlt : chunkTake s < cqAudChunk) :
    s.gStream = false ∧ chunkTake s = ringFill s := by
  rw [chunkTake] at hpos hlt ⊢
  split
  · next hchunk =>
    rw [if_pos hchunk] at hlt
    exact absurd hlt (Nat.lt_irrefl _)
  · next hchunk =>
    rw [if_neg hchunk] at hpos
    split
    · next hrest => exact ⟨hrest.1, rfl⟩
    · next hrest =>
      rw [if_neg hrest] at hpos
      exact absurd hpos (Nat.lt_irrefl 0)

/-- **A partial refill empties the PCM ring** of a dead stream. -/
theorem gDec_refilled_of_servesPartial {e : Engine σ} (h : ServesPartial e.out) :
    e.out.gStream = false ∧ (refilled e).out.gDec = emptied e.out.gDec := by
  obtain ⟨hpos, hlt⟩ := h
  obtain ⟨hstream, hall⟩ := chunkTake_of_lt_chunk hpos hlt
  set s := applyTrim { e.out with gDBFires := e.out.gDBFires + 1 } with hs
  have hdead : s.gStream = e.out.gStream := by
    rw [hs, applyTrim]
    split <;> rfl
  have hfill : ringFill (audioDoubleBack e.out).1 = 0 := by
    have hadvance := ringFill_advance s (chunkTake_le s)
    rw [hall, Nat.sub_self, ← hall] at hadvance
    exact hadvance
  obtain ⟨-, -, hdec⟩ := audioDoubleBack_frame e.out
  have hrd : (audioDoubleBack e.out).1.gDec.pcmRd = e.out.gDec.pcmWr := by
    have hdry := eq_of_sub_zero hfill
    rw [← hdry, hdec]
  refine ⟨hdead.symm.trans hstream, ?_⟩
  show (audioDoubleBack e.out).1.gDec = _
  rw [hdec, hrd]
  rfl

/-- A refill only reads. -/
theorem emptied_refilled (e : Engine σ) : emptied (refilled e).out.gDec = emptied e.out.gDec := by
  obtain ⟨-, -, hdec⟩ := audioDoubleBack_frame e.out
  show emptied (audioDoubleBack e.out).1.gDec = _
  rw [hdec]
  rfl

theorem nothingHeld_congr {d : Mp3Decoder σ} {dec : σ} {r r' : CqDecring 32} (h : emptied r = emptied r') :
    NothingHeld d dec r ↔ NothingHeld d dec r' := by
  have htotal : (emptied r).pcmTotal = (emptied r').pcmTotal := by rw [h]
  change r.pcmTotal = r'.pcmTotal at htotal
  rw [NothingHeld, NothingHeld, h, htotal]

/-- An idle pipeline at the end of a stream holds nothing. -/
theorem nothingHeld_of_idle (d : Mp3Decoder σ) (dec : σ) {r : CqDecring 32} (heof : r.eof = true)
    (hidle : cqDecringIdle r = true) : NothingHeld d dec r := by
  simp only [cqDecringIdle, Bool.and_eq_true, beq_iff_eq] at hidle
  obtain ⟨hcomp, hstage⟩ := hidle
  have hnil : pending r = [] := by
    rw [← List.length_eq_zero_iff, length_pending, hstage, backlog_eq_zero_iff.2 hcomp]
  exact nothingHeld_of_leftAlone d dec heof (Or.inl hnil)

/-! ## One step -/

/-- The invariant: `Engine.Inv`, and the output plays in playback alone. -/
structure Engine.Sound (e : Engine σ) : Prop where
  inv : e.Inv
  tidy : Tidy e

theorem Engine.Sound.step {d : Mp3Decoder σ} {e t : Engine σ} {a : EngineStep σ} (h : e.Sound)
    (ht : engineStep d e a = some t) : t.Sound := ⟨h.inv.step ht, tidy_engineStep h.tidy ht⟩

/-- A step without refills. -/
theorem partialAtEnd_iff_of_none {d : Mp3Decoder σ} {e : Engine σ} {a : EngineStep σ}
    (h : refills d e a = []) : PartialAtEnd d e a ↔ NotOvertaken d e a := by
  rw [PartialAtEnd, NotOvertaken, h]
  refine ⟨fun _ _ u hu => ?_, fun _ u hu => ?_⟩
  · exact absurd hu List.not_mem_nil
  · exact absurd hu List.not_mem_nil

/-- Both refills of a start, once one of them is partial, leave an empty PCM ring. -/
theorem refilled_refilled {e u : Engine σ} (hu : u ∈ [e, refilled e]) (h : ServesPartial u.out) :
    e.out.gStream = false ∧ (refilled (refilled e)).out.gDec = emptied e.out.gDec := by
  obtain ⟨hstream, hdec⟩ := gDec_refilled_of_servesPartial h
  rcases List.mem_cons.1 hu with rfl | hu
  · -- the second finds nothing more
    refine ⟨hstream, ?_⟩
    rw [← hdec]
    exact gDec_refilled_of_dry (by rw [hdec]; rfl)
  · rw [List.mem_singleton.1 hu] at hstream hdec
    refine ⟨(audioDoubleBack_frame e.out).1.symm.trans hstream, ?_⟩
    rw [hdec, emptied_refilled]

theorem partialAtEnd_iff_doubleBack (d : Mp3Decoder σ) {e : Engine σ} (h : e.Sound) :
    PartialAtEnd d e .doubleBack ↔ NotOvertaken d e .doubleBack := by
  by_cases hplaying : e.out.gPlaying = true
  · have hrefills : refills d e .doubleBack = [e] := if_pos hplaying
    have hstep : engineStep d e .doubleBack = some (refilled e) := if_pos hplaying
    rw [PartialAtEnd, NotOvertaken, hrefills, hstep]
    simp only [List.mem_singleton, forall_eq, Option.some.injEq, forall_eq', EngineStep.Refused, not_false_eq_true,
      true_imp_iff]
    apply imp_congr_right
    intro hserves
    obtain ⟨hstream, hdec⟩ := gDec_refilled_of_servesPartial hserves
    have hdead : Dead (refilled e) :=
      ⟨h.tidy.playing hplaying, (audioDoubleBack_frame e.out).1.trans hstream⟩
    have hdry : (refilled e).out.gDec.pcmWr = (refilled e).out.gDec.pcmRd := by
      rw [hdec]
      rfl
    rw [finished_iff_nothingHeld d hdead h.inv.doubleBack hdry, nothingHeld_congr (emptied_refilled e)]
    exact and_iff_right hstream
  · apply partialAtEnd_iff_of_none
    exact if_neg hplaying

/-- A start that is refused ends the listen. -/
theorem serviceAudio_refused {d : Mp3Decoder σ} {e : Engine σ} (hplay : e.gAuSt = .play)
    (hstart : mayStart (servicePump d e).out = true) : (serviceAudio d .refused e).gAuSt = .idle := by
  rw [serviceAudio, if_pos hplay]
  show (trimOrExit (startOutput .refused (servicePump d e))).gAuSt = _
  rw [startOutput, if_pos hstart]
  rfl

/-- The engine behind both refills, playing. -/
def started (e : Engine σ) : Engine σ :=
  { e with out := { (refilled (refilled e)).out with gPlaying := true } }

theorem gStream_started (e : Engine σ) : (started e).out.gStream = e.out.gStream := by
  simp only [started, refilled]
  rw [(audioDoubleBack_frame _).1, (audioDoubleBack_frame _).1]

theorem Engine.Inv.started {e : Engine σ} (h : e.Inv) : (Audio.started e).Inv := by
  have hrefilled : (refilled (refilled e)).Inv := h.doubleBack.doubleBack
  simp only [Audio.started]
  exact hrefilled.of_same rfl rfl rfl rfl

theorem serviceAudio_playing {d : Mp3Decoder σ} {e : Engine σ} (hplay : e.gAuSt = .play)
    (hstart : mayStart (servicePump d e).out = true) :
    serviceAudio d .playing e = trimOrExit (started (servicePump d e)) := by
  rw [serviceAudio, if_pos hplay]
  show trimOrExit (startOutput .playing (servicePump d e)) = _
  rw [startOutput, if_pos hstart]
  rfl

/-- The exit is taken of an idle pipeline alone. -/
theorem finished_trimOrExit_iff (d : Mp3Decoder σ) {e : Engine σ} (hdead : Dead e) (hinv : e.Inv)
    (hdry : e.out.gDec.pcmWr = e.out.gDec.pcmRd) :
    Finished d (trimOrExit e) ↔ NothingHeld d e.dec e.out.gDec := by
  obtain ⟨hstream, -, hdec⟩ := latencyTrim_frame e.out
  rw [trimOrExit, if_pos hdead.1]
  dsimp only
  split
  · next hexit =>
    -- nothing is held, and the listen is over
    simp only [playedOut, Bool.and_eq_true] at hexit
    have hidle := hexit.1.1.2
    rw [hdec] at hidle
    refine iff_of_true (finished_of_not_play ?_) (nothingHeld_of_idle d e.dec ?_ hidle)
    · exact App.AuState.noConfusion
    · exact hinv.eof hdead.1 hdead.2
  · have hdead' : Dead { e with out := latencyTrim e.out } := ⟨hdead.1, hstream.trans hdead.2⟩
    have hinv' : Engine.Inv { e with out := latencyTrim e.out } :=
      hinv.of_same rfl hstream (congrArg CqDecring.pcmSize hdec) (congrArg CqDecring.eof hdec)
    have hfinished := finished_iff_nothingHeld d hdead' hinv' (by rw [hdec]; exact hdry)
    rw [hfinished, hdec]

/-- The refills of a start that is refused: the listen is over. -/
theorem partialAtEnd_refused {d : Mp3Decoder σ} {e : Engine σ} (hplay : e.gAuSt = .play)
    (hstart : mayStart (servicePump d e).out = true) : PartialAtEnd d e (.service .refused) := by
  intro u hu hserves
  constructor
  · -- a partial refill has found no stream
    exact (gDec_refilled_of_servesPartial hserves).1
  · intro t ht
    cases ht
    apply finished_of_not_play
    rw [serviceAudio_refused hplay hstart]
    exact App.AuState.noConfusion

/-- A partial refill of a start: the listen is finished behind it exactly if nothing is held. -/
theorem finished_started_iff (d : Mp3Decoder σ) {e u : Engine σ} (hplay : e.gAuSt = .play)
    (hinv : e.Inv) (hu : u ∈ [e, refilled e]) (hserves : ServesPartial u.out) :
    Finished d (trimOrExit (started e)) ↔ NothingHeld d u.dec u.out.gDec := by
  obtain ⟨hstream, hdec⟩ := refilled_refilled hu hserves
  have hgDec : (started e).out.gDec = emptied e.out.gDec := hdec
  have hdead : Dead (started e) := ⟨hplay, (gStream_started e).trans hstream⟩
  have hdry : (started e).out.gDec.pcmWr = (started e).out.gDec.pcmRd := by
    rw [hgDec]
    rfl
  have hrings : emptied (started e).out.gDec = emptied e.out.gDec := by
    rw [hgDec]
    rfl
  rw [finished_trimOrExit_iff d hdead hinv.started hdry]
  -- the refill found the decoder and the rings that the start leaves
  rcases List.mem_cons.1 hu with rfl | hu
  · exact nothingHeld_congr hrings
  · rw [List.mem_singleton.1 hu]
    exact nothingHeld_congr (hrings.trans (emptied_refilled e).symm)

theorem servicePump_frame (d : Mp3Decoder σ) {e : Engine σ} (h : e.Inv) :
    (servicePump d e).gAuSt = e.gAuSt ∧ (servicePump d e).Inv := by
  rw [servicePump]
  split
  · exact ⟨rfl, h⟩
  · exact ⟨rfl, h.pump d⟩

theorem partialAtEnd_iff_service (d : Mp3Decoder σ) {e : Engine σ} (h : e.Sound) (start : SoundStart) :
    PartialAtEnd d e (.service start) ↔ NotOvertaken d e (.service start) := by
  by_cases hcond : e.gAuSt = .play ∧ mayStart (servicePump d e).out = true ∧ start ≠ .noChannel
  · have hrefills : refills d e (.service start) = [servicePump d e, refilled (servicePump d e)] :=
      if_pos hcond
    obtain ⟨hplay, hstart, hchannel⟩ := hcond
    cases start with
    | noChannel => exact absurd rfl hchannel
    | refused =>
        apply iff_of_true (partialAtEnd_refused hplay hstart)
        intro hno
        exact absurd trivial hno
    | playing =>
        have hstep : engineStep d e (.service .playing) = some (serviceAudio d .playing e) := rfl
        have hno : ¬ (EngineStep.service .playing : EngineStep σ).Refused := not_false
        obtain ⟨hpumped, hinv⟩ := servicePump_frame d h.inv
        rw [PartialAtEnd, NotOvertaken, hrefills, hstep, imp_iff_right hno, serviceAudio_playing hplay hstart]
        simp only [Option.some.injEq, forall_eq']
        apply forall_congr'
        intro u
        apply imp_congr_right
        intro hu
        apply imp_congr_right
        intro hserves
        rw [finished_started_iff d (hpumped.trans hplay) hinv hu hserves]
        exact and_iff_right (gDec_refilled_of_servesPartial hserves).1
  · apply partialAtEnd_iff_of_none
    exact if_neg hcond

/-- **A step splices no silence** exactly if its refills do not overtake the pump. -/
theorem partialAtEnd_iff (d : Mp3Decoder σ) {e : Engine σ} (h : e.Sound) (a : EngineStep σ) :
    PartialAtEnd d e a ↔ NotOvertaken d e a := by
  cases a with
  | doubleBack => exact partialAtEnd_iff_doubleBack d h
  | service start => exact partialAtEnd_iff_service d h start
  | tune | header | sync init mpDecode gComp | drain xs | die | pump | stop =>
      exact partialAtEnd_iff_of_none rfl

/-! ## The law over runs -/

/-- The engine at the launch, with any decoder. -/
def silent (dec : σ) (mpDecode : Bool) : Engine σ := ⟨launched.out, dec, .idle, mpDecode⟩

theorem sound_silent (dec : σ) (mpDecode : Bool) : (silent dec mpDecode).Sound := by
  refine ⟨Engine.Inv.of_idle rfl, fun _ => ⟨rfl, rfl, rfl, rfl, rfl, rfl⟩, ?_, ?_⟩
  · rintro ⟨⟩
  · rintro ⟨⟩

/-- The engine at a refill is in playback, on the rings of its listen. -/
theorem Engine.Sound.refills {d : Mp3Decoder σ} {e u : Engine σ} {a : EngineStep σ} (h : e.Sound)
    (hu : u ∈ Audio.refills d e a) : u.gAuSt = .play ∧ u.Inv := by
  cases a with
  | doubleBack =>
      by_cases hplaying : e.out.gPlaying = true
      · rw [Audio.refills, if_pos hplaying] at hu
        rw [List.mem_singleton.1 hu]
        exact ⟨h.tidy.playing hplaying, h.inv⟩
      · rw [Audio.refills, if_neg hplaying] at hu
        exact absurd hu List.not_mem_nil
  | service start =>
      by_cases hcond : e.gAuSt = .play ∧ mayStart (servicePump d e).out = true ∧ start ≠ .noChannel
      · rw [Audio.refills, if_pos hcond] at hu
        obtain ⟨hpumped, hinv⟩ := servicePump_frame d h.inv
        rcases List.mem_cons.1 hu with rfl | hu
        · exact ⟨hpumped.trans hcond.1, hinv⟩
        · rw [List.mem_singleton.1 hu]
          exact ⟨hpumped.trans hcond.1, hinv.doubleBack⟩
      · rw [Audio.refills, if_neg hcond] at hu
        exact absurd hu List.not_mem_nil
  | tune | header | sync init mpDecode gComp | drain xs | die | pump | stop =>
      exact absurd hu List.not_mem_nil

/-- A partial refill that finds the pump caught up does not overtake it. -/
theorem CaughtUp.notOvertaken {d : Mp3Decoder σ} {e : Engine σ} {a : EngineStep σ} (h : CaughtUp d e a)
    (hsound : e.Sound) : NotOvertaken d e a := by
  intro hno u hu hserves
  obtain ⟨hplay, hinv⟩ := hsound.refills hu
  have hdead := (gDec_refilled_of_servesPartial hserves).1
  exact nothingHeld_of_leftAlone d u.dec (hinv.eof hplay hdead) (h hno u hu hserves)

/-- Two frames and the beginning of a third come, and the stream ends. The decode task makes one pass before the
end and one behind it, and the output is started. -/
def cutOffListen : List (EngineStep Unit) :=
  [.tune, .header, .sync () true cutOff, .pump, .die, .pump]

/-- Three frames come, the decode task makes one pass, and the stream ends. -/
def overtaken : List (EngineStep Unit) :=
  [.tune, .header, .sync () true (shortFrame ++ shortFrame ++ shortFrame), .pump, .die]

end Casquinha.Audio

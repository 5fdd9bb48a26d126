import Casquinha.Decode.Spsc

/-!
# Puts, pump passes and PCM drains that nobody interrupts

`Spsc.put` is one claim that is written and committed, `Spsc.pump` one call of `cqDecringPump` and
`Spsc.drain` one read of all the PCM that is ready, each with the logs it leaves. Each is a run of the steps
of `Spsc` (`steps_put`, `steps_pump`, `steps_drain`), so what holds after every run holds after every
sequence of calls.
-/

set_option autoImplicit false

namespace Casquinha.Decode

open Lib

variable {w : Nat} {σ : Type}

/-- A step of the pump or of the interrupt. -/
def SpscStep.Consumes : SpscStep → Prop
  | .topUp _ | .round _ _ | .finish | .read _ _ => True
  | .claim _ | .fill _ | .commit | .eof => False

namespace Spsc

/-- One claim, `xs` written to it, and the commit. -/
def put (s : Spsc w σ) (xs : Bytes) : Spsc w σ :=
  { s with
    ring := cqDecringCommit (fillClaim s.ring (cqDecringClaim s.ring).1 xs) xs.length
    compLog := ((s.compLog.lookTaken s.compLog.taken.length).write xs).publish }

/-- One call of `cq_decring_pump`. -/
def pump (d : Mp3Decoder σ) (s : Spsc w σ) : Spsc w σ :=
  let p := cqDecringPump d s.dec s.ring
  { s with
    ring := p.ring
    dec := p.dec
    compLog := (s.compLog.lookSent s.compLog.sent.length).take
      ((pumpTopUp s.ring).stage.drop s.ring.stage.length)
    pcmLog := ((s.pcmLog.lookTaken s.pcmLog.taken.length).write p.decoded).publish }

/-- The interrupt reads everything that is ready. -/
def drain (s : Spsc w σ) : Spsc w σ :=
  let k := (s.ring.pcmWr - s.ring.pcmRd).toNat
  { s with
    ring := { s.ring with pcmRd := s.ring.pcmRd + BitVec.ofNat w k }
    pcmLog := (s.pcmLog.lookSent s.pcmLog.sent.length).take (s.readBytes k) }

/-- A put is three steps. -/
theorem steps_put (d : Mp3Decoder σ) {s : Spsc w σ} (hs : s.Inv) (hidle : s.producer = .idle) {xs : Bytes}
    (hfit : xs.length ≤ (cqDecringClaim s.ring).2.toNat) :
    run (Spsc.step true d) s [.claim s.compLog.taken.length, .fill xs, .commit] = some (s.put xs) := by
  have hview : Visible true s.compLog.seenTaken s.compLog.taken.length s.compLog.taken.length :=
    ⟨le_refl _, fun _ => hs.comp.seenTaken_le⟩
  have hseen : s.producerView s.compLog.taken.length = s.ring := by
    rw [producerView, ← hs.compRd]
  simp only [run_cons, run_nil, Spsc.step, hidle, if_pos hview, hseen, Option.bind_some, if_pos hfit, put]

/-- A top-up that sees all that is committed takes it as far as the stage has room. -/
theorem stage_afterTopUp {s : Spsc w σ} (hs : s.Inv) (ha : s.Addressed) :
    (s.afterTopUp s.compLog.sent.length).ring.stage = s.ring.stage ++
      (s.compLog.sent.drop s.compLog.taken.length).take (cqDecringStage - s.ring.stage.length) := by
  have htaken := hs.comp.taken_le_sent
  have hsent := hs.comp.sent_le
  have hsize := s.ring.compSize.isLt
  have hpos : (s.ring.compRd % s.ring.compSize).toNat =
      (s.compBase + s.compLog.taken.length) % s.ring.compSize.toNat := by
    rw [hs.compRd, toNat_counter_umod (hs.toNat_compRd ha)]
  have hlen : (s.compLog.sent.drop s.compLog.taken.length).length =
      s.compLog.sent.length - s.compLog.taken.length := List.length_drop
  have htake : topUpTake (s.topUpView s.compLog.sent.length) =
      min (s.compLog.sent.length - s.compLog.taken.length) (cqDecringStage - s.ring.stage.length) :=
    topUpTake_spec rfl hs.compRd htaken (by omega)
  rw [afterTopUp, pumpTopUp_spec, htake]
  simp only [topUpView, hpos]
  rw [hs.comp.unread.read hs.comp_pos (by omega) (by omega), ← hlen, Nat.min_comm]
  -- the cut at the end of what is committed is none
  exact congrArg (s.ring.stage ++ ·) List.take_eq_take_min.symm

/-- A top-up leaves the counters and the PCM ring alone. -/
theorem afterTopUp_keeps (s : Spsc w σ) (v : Nat) :
    (s.afterTopUp v).ring.eof = s.ring.eof ∧ (s.afterTopUp v).ring.pcmSize = s.ring.pcmSize ∧
      (s.afterTopUp v).ring.pcmWr = s.ring.pcmWr ∧ (s.afterTopUp v).ring.resyncs = s.ring.resyncs ∧
      (s.afterTopUp v).ring.flushes = s.ring.flushes := by
  rw [afterTopUp, pumpTopUp_spec]
  exact ⟨rfl, rfl, rfl, rfl, rfl⟩

/-- A round takes place while a pass is under way. -/
theorem step_of_pass {coherent : Bool} (d : Mp3Decoder σ) {s : Spsc w σ} {used : Nat} {progress : Bool} {v : Nat}
    {eof : Bool} (hpass : s.pass = some ⟨used, progress, false⟩)
    (hview : Visible coherent s.pcmLog.seenTaken v s.pcmLog.taken.length)
    (heof : eof = true → s.ring.eof = true) :
    s.step coherent d (.round v eof) = some (s.afterRound d ⟨used, progress, false⟩ v eof) := by
  simp only [Spsc.step, hpass]
  exact if_pos ⟨hview, heof⟩

/-- The steps that put `xs` and begin a pass, when everything before has been staged. -/
def stageSteps (s : Spsc w σ) (xs : Bytes) : List SpscStep :=
  [.claim s.compLog.taken.length, .fill xs, .commit, .topUp (s.compLog.sent.length + xs.length)]

/-- They lead to a pass that has all of it staged. -/
theorem run_stageSteps {d : Mp3Decoder σ} (hd : d.Bounded) {s : Spsc w σ} (hs : s.Inv)
    (hdvd : SizesDivide s.ring) (hidle : s.producer = .idle) (hpass : s.pass = none)
    (hall : s.compLog.taken = s.compLog.sent) {xs : Bytes}
    (hfit : xs.length ≤ (cqDecringClaim s.ring).2.toNat)
    (hroom : s.ring.stage.length + xs.length ≤ cqDecringStage) :
    run (Spsc.step true d) s (s.stageSteps xs) =
        some ((s.put xs).afterTopUp (s.compLog.sent.length + xs.length)) ∧
      ((s.put xs).afterTopUp (s.compLog.sent.length + xs.length)).ring.stage = s.ring.stage ++ xs := by
  have hput := steps_put d hs hidle hfit
  obtain ⟨hinv, hdiv⟩ := hs.run hd hdvd hput
  have hpending : s.compLog.pending = [] := by
    have hproducer := hs.producer
    rwa [ProducerOk, hidle] at hproducer
  have hsent : (s.put xs).compLog.sent = s.compLog.sent ++ xs := by
    simp [put, RingLog.publish, RingLog.write, RingLog.lookTaken, hpending]
  have hlen : (s.put xs).compLog.sent.length = s.compLog.sent.length + xs.length := by
    rw [hsent, List.length_append]
  have hview : Visible true (s.put xs).compLog.seenSent (s.put xs).compLog.sent.length
      (s.put xs).compLog.sent.length := ⟨le_refl _, fun _ => hinv.comp.seenSent_le⟩
  constructor
  · have hsplit : s.stageSteps xs = [.claim s.compLog.taken.length, .fill xs, .commit] ++
        [.topUp (s.compLog.sent.length + xs.length)] := rfl
    have hidle' : (s.put xs).pass = none := hpass
    rw [hsplit, run_append, hput, Option.bind_some, run_cons, ← hlen]
    simp only [Spsc.step, hidle', if_pos hview]
    rfl
  · -- all that is new is what has been put
    have htaken : (s.put xs).compLog.taken.length = s.compLog.sent.length := congrArg List.length hall
    have hstage : (s.put xs).ring.stage = s.ring.stage := rfl
    rw [← hlen, stage_afterTopUp hinv (Addressed.of_divide hdiv), hstage, htaken, hsent, List.drop_left,
      List.take_of_length_le (by omega)]

/-- Two writes with the same view are one write. -/
theorem write_publish_twice {l : RingLog UInt8} (h : l.pending = []) (v : Nat) (a b : Bytes) :
    ((((l.lookTaken v).write a).publish.lookTaken v).write b).publish =
      ((l.lookTaken v).write (a ++ b)).publish := by
  simp [RingLog.lookTaken, RingLog.write, RingLog.publish, h]

/-- A round of the pass `p` that sees the cursor and the flag as they are is a step. -/
theorem step_round (d : Mp3Decoder σ) {s : Spsc w σ} {p : Pass w σ}
    (hseen : s.pcmLog.seenTaken ≤ s.pcmLog.taken.length)
    (hpcmRd : s.ring.pcmRd = counter w s.pcmBase s.pcmLog.taken.length)
    (hpass : s.pass = some ⟨p.used, p.progress, false⟩) (hring : s.ring = p.ring) (hdec : s.dec = p.dec) :
    ∃ out, (pumpRound d p).1.decoded = p.decoded ++ out ∧
      s.step true d (.round s.pcmLog.taken.length s.ring.eof) = some
        { s with
          ring := (pumpRound d p).1.ring
          dec := (pumpRound d p).1.dec
          pass := some ⟨(pumpRound d p).1.used, (pumpRound d p).1.progress, !(pumpRound d p).2⟩
          pcmLog := ((s.pcmLog.lookTaken s.pcmLog.taken.length).write out).publish } := by
  have hview : Visible true s.pcmLog.seenTaken s.pcmLog.taken.length s.pcmLog.taken.length ∧
      (s.ring.eof = true → s.ring.eof = true) := ⟨⟨le_refl _, fun _ => hseen⟩, id⟩
  -- the round sees the ring as it is
  have hround : pumpRound d (s.roundView ⟨p.used, p.progress, false⟩ s.pcmLog.taken.length
      s.ring.eof) = pumpRound d { p with fed := [], decoded := [] } := by
    rw [roundView, ← hpcmRd, hring, hdec]
  obtain ⟨hgo, hr, hde, hu, hpr, hdecoded⟩ := pumpRound_history d p
  have hframe := pumpRound_frame d p
  refine ⟨_, hdecoded, ?_⟩
  simp only [Spsc.step, afterRound, hpass, if_pos hview, hround, hgo, hr, hde, hu, hpr]
  rw [hring, ← hframe.2.1, ← hframe.2.2.1]

/-- The rounds of the loop, each seeing the cursor and the flag as they are, are steps. -/
theorem steps_pumpLoop (d : Mp3Decoder σ) :
    ∀ (fuel : Nat) (s : Spsc w σ) (p : Pass w σ), s.pcmLog.pending = [] →
      s.pcmLog.seenTaken ≤ s.pcmLog.taken.length →
      s.ring.pcmRd = counter w s.pcmBase s.pcmLog.taken.length →
      s.pass = some ⟨p.used, p.progress, false⟩ → s.ring = p.ring → s.dec = p.dec →
      s.ring.stage.length - p.used < fuel →
      ∃ steps out, (∀ a ∈ steps, a.Consumes) ∧ (pumpLoop d fuel p).decoded = p.decoded ++ out ∧
        run (Spsc.step true d) s steps = some
          { s with
            ring := (pumpLoop d fuel p).ring
            dec := (pumpLoop d fuel p).dec
            pass := some ⟨(pumpLoop d fuel p).used, (pumpLoop d fuel p).progress, true⟩
            pcmLog := ((s.pcmLog.lookTaken s.pcmLog.taken.length).write out).publish } := by
  intro fuel
  induction fuel with
  | zero => intro s p _ _ _ _ _ _ hf; omega
  | succ fuel ih =>
      intro s p hpending hseen hpcmRd hpass hring hdec hf
      obtain ⟨out, hdecoded, ht⟩ := step_round d hseen hpcmRd hpass hring hdec
      have hframe := pumpRound_frame d p
      rw [pumpLoop]
      cases hres : pumpRound d p with
      | mk p' go =>
          rw [hres] at ht hdecoded hframe
          cases go with
          | false =>
              refine ⟨[.round s.pcmLog.taken.length s.ring.eof], out, ?_, hdecoded, ?_⟩
              · simp [SpscStep.Consumes]
              · rw [run_cons, ht]
                rfl
          | true =>
              have hlt := pumpRound_lt (d := d) (p := p) (by rw [hres])
              rw [hres, ← hring] at hlt
              obtain ⟨hstage, -, hrd, -, -⟩ := hframe
              simp only at hlt hstage hrd hdecoded
              have hrd' : p'.ring.pcmRd = counter w s.pcmBase s.pcmLog.taken.length := by
                rw [hrd, ← hring]
                exact hpcmRd
              have hfuel : p'.ring.stage.length - p'.used < fuel := by
                rw [hstage, ← hring]
                omega
              obtain ⟨steps, out', hsteps, hout', hrun⟩ :=
                ih { s with
                  ring := p'.ring
                  dec := p'.dec
                  pass := some ⟨p'.used, p'.progress, false⟩
                  pcmLog := ((s.pcmLog.lookTaken s.pcmLog.taken.length).write out).publish }
                  p' rfl (le_refl _) hrd' rfl rfl rfl hfuel
              refine ⟨.round s.pcmLog.taken.length s.ring.eof :: steps, out ++ out', ?_, ?_, ?_⟩
              · exact List.forall_mem_cons.2 ⟨trivial, hsteps⟩
              · rw [hout', hdecoded, List.append_assoc]
              · rw [run_cons, ht, Option.bind_some]
                refine hrun.trans ?_
                simp only [← write_publish_twice hpending]
                rfl

/-- **A pump pass that nobody interrupts is a run of steps**: the top-up, the rounds and the
compaction, each seeing every cursor as it is. -/
theorem steps_pump (d : Mp3Decoder σ) {s : Spsc w σ} (hs : s.Inv) (hpass : s.pass = none) :
    ∃ steps, (∀ a ∈ steps, a.Consumes) ∧ run (Spsc.step true d) s steps = some (s.pump d) := by
  -- nobody interrupts, so every view is the present state
  have hview : Visible true s.compLog.seenSent s.compLog.sent.length s.compLog.sent.length :=
    ⟨le_refl _, fun _ => hs.comp.seenSent_le⟩
  have hseen : s.topUpView s.compLog.sent.length = s.ring := by
    rw [topUpView, ← hs.compWr]
  have hkeep : (pumpTopUp s.ring).compWr = s.ring.compWr ∧
      (pumpTopUp s.ring).pcmRd = s.ring.pcmRd := by
    rw [pumpTopUp_spec]
    exact ⟨rfl, rfl⟩
  -- the pass after its top-up, and the machine in the same state
  let p := pumpStart s.dec s.ring
  let t : Spsc w σ :=
    { s with
      ring := p.ring
      pass := some ⟨0, topUpTake s.ring ≠ 0, false⟩
      compLog := (s.compLog.lookSent s.compLog.sent.length).take
        (p.ring.stage.drop s.ring.stage.length) }
  have ht : s.step true d (.topUp s.compLog.sent.length) = some t := by
    simp only [Spsc.step, afterTopUp, hpass, if_pos hview, hseen, t, p, pumpStart]
    rw [← hkeep.1]
  obtain ⟨steps, out, hsteps, hout, hrun⟩ := steps_pumpLoop d (p.ring.stage.length + 1) t p hs.pcm_pending
    hs.pcm.seenTaken_le (hkeep.2.trans hs.pcmRd) rfl rfl rfl (Nat.lt_succ_of_le (Nat.sub_le _ _))
  have hdecoded : (pumpLoop d (p.ring.stage.length + 1) p).decoded = out := hout
  refine ⟨.topUp s.compLog.sent.length :: (steps ++ [.finish]), ?_, ?_⟩
  · refine List.forall_mem_cons.2 ⟨trivial, List.forall_mem_append.2 ⟨hsteps, ?_⟩⟩
    simp [SpscStep.Consumes]
  rw [run_cons, ht, Option.bind_some, run_append, hrun, Option.bind_some, run_cons]
  simp only [p] at hdecoded
  simp only [Spsc.step, pump, cqDecringPump, pumpFinish, hdecoded, ← hpass]
  rfl

/-- A drain is one step. -/
theorem steps_drain (d : Mp3Decoder σ) {s : Spsc w σ} (hs : s.Inv) :
    ∃ steps, (∀ a ∈ steps, a.Consumes) ∧ run (Spsc.step true d) s steps = some s.drain := by
  have hready : s.readable s.pcmLog.sent.length = (s.ring.pcmWr - s.ring.pcmRd).toNat := by
    rw [readable, ← hs.pcmWr]
  have hview : Visible true s.pcmLog.seenSent s.pcmLog.sent.length s.pcmLog.sent.length ∧
      (s.ring.pcmWr - s.ring.pcmRd).toNat ≤ s.readable s.pcmLog.sent.length :=
    ⟨⟨le_refl _, fun _ => hs.pcm.seenSent_le⟩, hready.ge⟩
  refine ⟨[.read s.pcmLog.sent.length (s.ring.pcmWr - s.ring.pcmRd).toNat], ?_, ?_⟩
  · simp [SpscStep.Consumes]
  rw [run_cons]
  simp only [Spsc.step, if_pos hview]
  rfl

end Spsc

end Casquinha.Decode

import Casquinha.Audio.Feed
import Casquinha.Transport.Lifecycle
import Casquinha.Lib.Run

/-!
# Runs of the service are runs of the engine

Every step of the service is a run of the engine (`serviceStep_simulates`), as long as the two are linked:
the engine knows whether there is a stream and a channel, the window has its size and is empty without a
listen, and a playlist is asked for without a listen alone. With the invariants of the engine this is what
holds of the globals of the audio part between two passes (`audio_engine_invariant`).
-/

set_option autoImplicit false

namespace Casquinha.Audio

open Lib Decode Transport

variable {σ : Type}

/-! ## The engine -/

/-- A run of the engine leads from `e` to `e'`. -/
def EngineRun (d : Mp3Decoder σ) (e e' : Engine σ) : Prop :=
  ∃ steps, run (engineStep d) e steps = some e'

theorem EngineRun.refl (d : Mp3Decoder σ) (e : Engine σ) : EngineRun d e e := ⟨[], rfl⟩

theorem EngineRun.trans {d : Mp3Decoder σ} {e e' e'' : Engine σ} (h : EngineRun d e e')
    (h' : EngineRun d e' e'') : EngineRun d e e'' := by
  obtain ⟨steps, hsteps⟩ := h
  obtain ⟨steps', hsteps'⟩ := h'
  refine ⟨steps ++ steps', ?_⟩
  rw [run_append, hsteps]
  exact hsteps'

theorem EngineRun.one {d : Mp3Decoder σ} {e e' : Engine σ} (step : EngineStep σ)
    (h : engineStep d e step = some e') : EngineRun d e e' := by
  refine ⟨[step], ?_⟩
  rw [run_cons, h]
  rfl

theorem EngineRun.stop (d : Mp3Decoder σ) (e : Engine σ) : EngineRun d e (stopAudio e) :=
  EngineRun.one .stop rfl

/-- The engine with another ring. -/
def withRing (e : Engine σ) (r : CqDecring 32) : Engine σ :=
  { e with out := { e.out with gDec := r } }

/-- What fits into a claim is put there by a step of the engine. -/
theorem putClaim_eq (f : Feed) {xs : Bytes} (h : xs.length ≤ (cqDecringClaim f.ring).2.toNat) :
    putClaim f.ring xs = (f.commit xs).ring := by
  simp only [putClaim, Feed.commit, List.take_of_length_le h]

/-- A drain of the service is a run of drains of the engine. -/
theorem engineRun_drainLoop (d : Mp3Decoder σ) (fuel : Nat) (f : Feed) (t : CqTransport)
    {e : Engine σ} (hplay : e.gAuSt = .play) (hstream : e.out.gStream = true)
    (hring : e.out.gDec = f.ring) :
    EngineRun d e (withRing e (drainLoop fuel f t).1.ring) := by
  have hstay : EngineRun d e (withRing e f.ring) := by
    rw [← hring]
    exact EngineRun.refl d e
  induction fuel generalizing f t e with
  | zero => exact hstay
  | succ fuel ih =>
      rw [drainLoop]
      dsimp only
      split
      · -- the ring is full: the loop ends where it is
        exact hstay
      · split
        · -- nothing is buffered
          exact hstay
        · -- one claim is one `drain` of the engine, and the rounds behind it are a run by the induction
          have hfits : (cqTxDrain t (cqDecringClaim f.ring).2.toNat).1.length ≤
              (cqDecringClaim f.ring).2.toNat := List.length_take_le _ _
          have hput := putClaim_eq f hfits
          have hdrain : EngineRun d e (withRing e
              (f.commit (cqTxDrain t (cqDecringClaim f.ring).2.toNat).1).ring) := by
            refine EngineRun.one (.drain (cqTxDrain t (cqDecringClaim f.ring).2.toNat).1) ?_
            simp only [engineStep]
            rw [hring, if_pos ⟨hplay, hstream, hfits⟩, hput]
            rfl
          exact hdrain.trans (ih _ _ hplay hstream rfl (EngineRun.refl d _))

/-- What `StopAudio` leaves behind: no stream, nothing to skip, and both rings empty at 0. -/
structure AtRest (s : Output) : Prop where
  stream : s.gStream = false
  skip : s.gRingSkip = 0
  pcmWr : s.gDec.pcmWr = 0
  pcmRd : s.gDec.pcmRd = 0
  compWr : s.gDec.compWr = 0
  compRd : s.gDec.compRd = 0

/-- The engine is at rest without a listen, and plays in playback alone; there the compressed ring has
its size. -/
structure Tidy (e : Engine σ) : Prop where
  idle : e.gAuSt = .idle → AtRest e.out
  playing : e.out.gPlaying = true → e.gAuSt = .play
  compSize : e.gAuSt = .play → e.out.gDec.compSize = BitVec.ofNat 32 cqAudCompRing

theorem tidy_stopAudio (e : Engine σ) : Tidy (stopAudio e) := by
  refine ⟨fun _ => ⟨rfl, rfl, rfl, rfl, rfl, rfl⟩, ?_, ?_⟩
  · rintro ⟨⟩
  · rintro ⟨⟩

/-- In playback only the size is left to say. -/
theorem tidy_of_play {e : Engine σ} (h : e.gAuSt = .play)
    (hsize : e.out.gDec.compSize = BitVec.ofNat 32 cqAudCompRing) : Tidy e := by
  refine ⟨?_, fun _ => h, fun _ => hsize⟩
  intro hidle
  cases h.symm.trans hidle

theorem tidy_startOutput (start : SoundStart) {e : Engine σ} (h : Tidy e) (hplay : e.gAuSt = .play) :
    Tidy (startOutput start e) := by
  have hdec := (startDoubleBuffer_frame start e.out).2
  rw [startOutput]
  split
  · cases hres : startDoubleBuffer start e.out with
    | mk out started =>
        rw [hres] at hdec
        -- the Sound Manager does not touch the rings
        cases started with
        | true =>
            refine tidy_of_play hplay ?_
            show out.gDec.compSize = _
            rw [hdec]
            exact h.compSize hplay
        | false => exact tidy_stopAudio _
  · exact h

theorem tidy_trimOrExit {e : Engine σ} (h : Tidy e) : Tidy (trimOrExit e) := by
  have hdec := (latencyTrim_frame e.out).2.2
  rw [trimOrExit]
  split
  · rename_i hplay
    -- played out, or the trim, which sets what is to be skipped and leaves the rings
    dsimp only
    split
    · exact tidy_stopAudio _
    · refine tidy_of_play hplay ?_
      show (latencyTrim e.out).gDec.compSize = _
      rw [hdec]
      exact h.compSize hplay
  · exact h

theorem tidy_pumpEngine (d : Mp3Decoder σ) {e : Engine σ} (h : Tidy e) (hplay : e.gAuSt = .play) :
    Tidy (pumpEngine d e) :=
  tidy_of_play hplay ((sizes_pump d e.dec e.out.gDec).2.trans (h.compSize hplay))

theorem tidy_serviceAudio (d : Mp3Decoder σ) (start : SoundStart) {e : Engine σ} (h : Tidy e) :
    Tidy (serviceAudio d start e) := by
  rw [serviceAudio]
  split
  · rename_i hplay
    apply tidy_trimOrExit
    split
    · exact tidy_startOutput start h hplay
    · exact tidy_startOutput start (tidy_pumpEngine d h hplay) hplay
  · exact h

/-- **Every step** of the engine keeps it tidy. -/
theorem tidy_engineStep {d : Mp3Decoder σ} {e t : Engine σ} {a : EngineStep σ} (h : Tidy e)
    (ht : engineStep d e a = some t) : Tidy t := by
  cases a with
  | tune =>
      -- neither idle nor playback: only that nothing plays has to be carried over
      simp only [engineStep, Option.ite_none_right_eq_some, Option.some.injEq] at ht
      obtain ⟨hidle, rfl⟩ := ht
      refine ⟨?_, ?_, ?_⟩
      · rintro ⟨⟩
      · intro hplaying
        cases (h.playing hplaying).symm.trans hidle
      · rintro ⟨⟩
  | header =>
      simp only [engineStep, Option.ite_none_right_eq_some, Option.some.injEq] at ht
      obtain ⟨hhttp, rfl⟩ := ht
      refine ⟨?_, ?_, ?_⟩
      · rintro ⟨⟩
      · intro hplaying
        cases (h.playing hplaying).symm.trans hhttp
      · rintro ⟨⟩
  | sync init mpDecode gComp =>
      simp only [engineStep, Option.ite_none_right_eq_some, Option.map_eq_some_iff] at ht
      obtain ⟨-, answer, -, rfl⟩ := ht
      -- `cq_decring_init` has just given the ring its size
      exact tidy_of_play rfl rfl
  | drain xs =>
      simp only [engineStep, Option.ite_none_right_eq_some, Option.some.injEq] at ht
      obtain ⟨hplay, rfl⟩ := ht
      exact tidy_of_play hplay.1 (h.compSize hplay.1)
  | die =>
      -- in playback the engine plays on, else `StopAudio`
      simp only [engineStep, Option.ite_none_right_eq_some, Option.some.injEq] at ht
      obtain ⟨-, rfl⟩ := ht
      rw [streamDied]
      split
      · rename_i hplay
        exact tidy_of_play hplay (h.compSize hplay)
      · exact tidy_stopAudio e
  | pump =>
      simp only [engineStep, Option.ite_none_right_eq_some, Option.some.injEq] at ht
      obtain ⟨hplay, rfl⟩ := ht
      exact tidy_pumpEngine d h hplay
  | doubleBack =>
      simp only [engineStep, Option.ite_none_right_eq_some, Option.some.injEq] at ht
      obtain ⟨hplaying, rfl⟩ := ht
      have hplay := h.playing hplaying
      refine tidy_of_play hplay ?_
      show (audioDoubleBack e.out).1.gDec.compSize = _
      rw [(audioDoubleBack_frame e.out).2.2]
      exact h.compSize hplay
  | service start =>
      cases ht
      exact tidy_serviceAudio d start h
  | stop =>
      cases ht
      exact tidy_stopAudio e

theorem EngineRun.tidy {d : Mp3Decoder σ} {e e' : Engine σ} (h : EngineRun d e e') (he : Tidy e) :
    Tidy e' := by
  obtain ⟨steps, hsteps⟩ := h
  exact run_invariant Tidy (fun _ _ _ hs hstep => tidy_engineStep hs hstep) he hsteps

theorem EngineRun.inv {d : Mp3Decoder σ} {e e' : Engine σ} (h : EngineRun d e e') (he : e.Inv) :
    e'.Inv := by
  obtain ⟨steps, hsteps⟩ := h
  exact run_invariant Engine.Inv (fun _ _ _ hs hstep => hs.step hstep) he hsteps

/-! ## The link -/

/-- The engine knows whether there is a stream and a channel; the window has its size, and is empty
without a listen; and a playlist is asked for without a listen alone. -/
structure Linked (s : Service σ) : Prop where
  stream : s.eng.out.gStream = s.gStream.isSome
  chan : s.gChan = s.eng.out.gPlaying
  window : s.gComp.length ≤ cqAudCompMax
  idle : s.eng.gAuSt = .idle → s.gComp = []
  pls : s.gPls.isSome = true → s.eng.gAuSt = .idle

/-- The engine runs from `s` to `s'`, and the link is kept. -/
structure Simulates (d : Mp3Decoder σ) (s s' : Service σ) : Prop where
  run : EngineRun d s.eng s'.eng
  linked : Linked s'

theorem Linked.refl {s : Service σ} (h : Linked s) (d : Mp3Decoder σ) : Simulates d s s :=
  ⟨EngineRun.refl d s.eng, h⟩

theorem Simulates.trans {d : Mp3Decoder σ} {s s' s'' : Service σ} (h : Simulates d s s')
    (h' : Simulates d s' s'') : Simulates d s s'' :=
  ⟨h.run.trans h'.run, h'.linked⟩

/-- Whatever happened before, `StopAudio` restores the link. -/
theorem linked_stopAudio (s : Service σ) : Linked s.stopAudio :=
  ⟨rfl, rfl, Nat.zero_le _, fun _ => rfl, fun _ => rfl⟩

theorem simulates_stopAudio (d : Mp3Decoder σ) (s : Service σ) : Simulates d s s.stopAudio :=
  ⟨EngineRun.stop d s.eng, linked_stopAudio s⟩

/-! ## The wire -/

theorem drainStreamToDec_of_some {s : Service σ} {t : CqTransport} (h : s.gStream = some t) :
    s.drainStreamToDec =
      { s.setFeed (drainLoop (t.data.length + 1) s.feed t).1 with
        gStream := some (drainLoop (t.data.length + 1) s.feed t).2 } := by
  simp only [Service.drainStreamToDec, h]

theorem simulates_drainStreamToDec (d : Mp3Decoder σ) {s : Service σ} (h : Linked s)
    (hplay : s.eng.gAuSt = .play) : Simulates d s s.drainStreamToDec := by
  cases hstream : s.gStream with
  | none =>
      have hsame : s.drainStreamToDec = s := by simp only [Service.drainStreamToDec, hstream]
      rw [hsame]
      exact h.refl d
  | some t =>
      have hlive : s.eng.out.gStream = true := by rw [h.stream, hstream]; rfl
      rw [drainStreamToDec_of_some hstream]
      exact ⟨engineRun_drainLoop d _ s.feed t hplay hlive rfl,
        hlive, h.chan, h.window, h.idle, h.pls⟩

theorem simulates_drainToComp (d : Mp3Decoder σ) {s : Service σ} (h : Linked s)
    (hne : s.eng.gAuSt ≠ .idle) : Simulates d s s.drainToComp := by
  rw [Service.drainToComp]
  split
  · exact h.refl d
  · rename_i t hstream
    have hlive : s.eng.out.gStream = true := by rw [h.stream, hstream]; rfl
    split
    · -- the window takes no more than the room it has, and the engine does not see it
      refine ⟨EngineRun.refl d s.eng, hlive, h.chan, ?_, fun hidle => absurd hidle hne, h.pls⟩
      simp only [cqTxDrain, List.length_append, List.length_take]
      omega
    · exact h.refl d

theorem simulates_drainWire (d : Mp3Decoder σ) {s : Service σ} (h : Linked s)
    (hne : s.eng.gAuSt ≠ .idle) : Simulates d s s.drainWire := by
  rw [Service.drainWire]
  split
  · exact simulates_drainStreamToDec d h ‹_›
  · exact simulates_drainToComp d h hne

/-- A drain keeps the phase and the presence of the stream. -/
theorem drainStreamToDec_frame (s : Service σ) :
    s.drainStreamToDec.eng.gAuSt = s.eng.gAuSt ∧
      s.drainStreamToDec.gStream.isSome = s.gStream.isSome := by
  rw [Service.drainStreamToDec]
  split
  · exact ⟨rfl, rfl⟩
  · rename_i t hstream
    rw [hstream]
    exact ⟨rfl, rfl⟩

theorem drainToComp_frame (s : Service σ) :
    s.drainToComp.eng = s.eng ∧ s.drainToComp.gStream.isSome = s.gStream.isSome := by
  rw [Service.drainToComp]
  split
  · exact ⟨rfl, rfl⟩
  · rename_i t hstream
    split
    · rw [hstream]
      exact ⟨rfl, rfl⟩
    · exact ⟨rfl, rfl⟩

theorem drainWire_frame (s : Service σ) :
    s.drainWire.eng.gAuSt = s.eng.gAuSt ∧ s.drainWire.gStream.isSome = s.gStream.isSome := by
  rw [Service.drainWire]
  split
  · exact drainStreamToDec_frame s
  · obtain ⟨heng, hstream⟩ := drainToComp_frame s
    exact ⟨congrArg Engine.gAuSt heng, hstream⟩

theorem simulates_wireDied (d : Mp3Decoder σ) {s : Service σ} (h : Linked s)
    (hlive : s.gStream.isSome = true) : Simulates d s s.wireDied := by
  rw [Service.wireDied]
  split
  · -- the stream dies in playback: the rest goes to the ring, and the engine plays on
    rename_i hplay
    have hdrain := simulates_drainStreamToDec d h hplay
    obtain ⟨hst, hstream⟩ := drainStreamToDec_frame s
    refine hdrain.trans ⟨EngineRun.one .die ?_, ?_⟩
    · simp only [engineStep]
      rw [hdrain.linked.stream, hstream, hlive, if_pos rfl]
      rfl
    · have heng : (s.drainStreamToDec.freeStream).eng = streamDied s.drainStreamToDec.eng := rfl
      rw [streamDied, if_pos (hst.trans hplay)] at heng
      refine ⟨?_, ?_, hdrain.linked.window, ?_, ?_⟩
      · rw [heng]
        rfl
      · rw [heng]
        exact hdrain.linked.chan
      · rw [heng]
        exact hdrain.linked.idle
      · rw [heng]
        exact hdrain.linked.pls
  · -- it dies before playback: `StopAudio`, and what the drain moved goes with the window
    have heng := (drainToComp_frame s).1
    refine ⟨?_, linked_stopAudio _⟩
    show EngineRun d s.eng (stopAudio s.drainToComp.eng)
    rw [heng]
    exact EngineRun.stop d s.eng

/-- A poll changes the stream, and the engine knows no more of it than that it is there. -/
theorem linked_polled (env : OtEnv) {s : Service σ} (h : Linked s) {t : CqTransport}
    (hstream : s.gStream = some t) : Linked { s with gStream := some (cqTxPoll env t) } := by
  refine ⟨?_, h.chan, h.window, h.idle, h.pls⟩
  rw [h.stream, hstream]
  rfl

/-- **The wire** of a pass. -/
theorem simulates_serviceWire (d : Mp3Decoder σ) (env : AudioEnv σ) {s : Service σ} (h : Linked s)
    (hne : s.eng.gAuSt ≠ .idle) : Simulates d s (s.serviceWire env) := by
  rw [Service.serviceWire]
  split
  · exact h.refl d
  · rename_i t hstream
    have hdrain := simulates_drainWire d (linked_polled env.ot h hstream) hne
    dsimp only
    split
    · exact ⟨hdrain.run, hdrain.linked⟩
    · have hsome := (drainWire_frame { s with gStream := some (cqTxPoll env.ot t) }).2
      have hdied := simulates_wireDied d hdrain.linked hsome
      exact ⟨hdrain.run.trans hdied.run, hdied.linked⟩

/-! ## Tuning in -/

theorem simulates_stripHeader (d : Mp3Decoder σ) {s : Service σ} (h : Linked s) :
    Simulates d s s.stripHeader := by
  rw [Service.stripHeader]
  split
  · rename_i hhttp
    split
    · -- the window starts behind the header
      rename_i i _
      refine ⟨EngineRun.one .header (if_pos hhttp.1), h.stream, h.chan, ?_, ?_, ?_⟩
      · simp only [List.length_drop]
        have := h.window
        omega
      · rintro ⟨⟩
      · intro hpls
        cases hhttp.1.symm.trans (h.pls hpls)
    · split
      · -- no end of a header in 8 KB
        exact simulates_stopAudio d s
      · exact h.refl d
  · exact h.refl d

/-- What is left of the window at the first confirmed frame is there, and fits into the ring. -/
theorem synced_window {s : Service σ} (h : Linked s) {off : Nat} {f : CqMp3Frame}
    (hanswer : cqMp3Sync s.gComp = some (off, f)) :
    s.gComp.drop off ≠ [] ∧ (s.gComp.drop off).length ≤ cqAudCompMax := by
  have hlt := (sync_some hanswer).1.lt_length
  have hwindow := h.window
  constructor
  · rw [Ne, List.drop_eq_nil_iff]
    omega
  · rw [List.length_drop]
    omega

/-- The hand-off is the start of playback in the engine, and it commits the whole window. -/
theorem handOff_window (env : AudioEnv σ) (f : CqMp3Frame) (s : Service σ) (hne : s.gComp ≠ [])
    (hlen : s.gComp.length ≤ cqAudCompMax) :
    let eng := openAudioOutput env.init env.task f.channels s.eng
    let played := Service.handOff { s with eng := { eng with gAuSt := .play } }
    played.eng = startPlay env.init env.task f s.gComp s.eng ∧
      played.committed = s.committed ++ s.gComp := by
  intro eng played
  -- the ring was armed just now, so one claim takes all of it
  have hclaim := claim_of_empty (r := eng.out.gDec) rfl rfl rfl
  have hroom : s.gComp.length ≤ (cqDecringClaim eng.out.gDec).2.toNat := by
    rw [hclaim]
    exact hlen.trans (by decide)
  have hhand := handLoop_of_claim ⟨eng.out.gDec, s.committed⟩ hne hroom
  have hput := putClaim_eq ⟨eng.out.gDec, s.committed⟩ hroom
  constructor
  · simp only [played, Service.handOff, Service.setFeed, Service.feed, startPlay]
    rw [hhand, ← hput]
  · simp only [played, Service.handOff, Service.setFeed, Service.feed]
    rw [hhand]
    rfl

theorem simulates_syncStream (d : Mp3Decoder σ) (env : AudioEnv σ) {s : Service σ} (h : Linked s)
    (htidy : Tidy s.eng) : Simulates d s (s.syncStream env) := by
  rw [Service.syncStream]
  split
  · rename_i hsync
    split
    · rename_i off f hanswer
      dsimp only
      split
      · -- a frame, and memory for the rings
        obtain ⟨hne, hlen⟩ := synced_window h hanswer
        have heng := (handOff_window env f { s with gComp := s.gComp.drop off } hne hlen).1
        refine ⟨EngineRun.one (.sync env.init env.task s.gComp) ?_, ?_⟩
        · simp only [engineStep]
          rw [if_pos ⟨hsync, h.window⟩, hanswer, Option.map_some]
          exact congrArg some heng.symm
        · -- before playback there is no channel
          have hchan : s.gChan = false := by
            rw [h.chan, Bool.eq_false_iff]
            intro hplaying
            cases hsync.symm.trans (htidy.playing hplaying)
          refine ⟨h.stream, hchan, Nat.zero_le _, fun _ => rfl, ?_⟩
          intro hpls
          cases hsync.symm.trans (h.pls hpls)
      · -- a frame, but no memory
        exact ⟨EngineRun.stop d s.eng, linked_stopAudio _⟩
    · split
      · -- no frame in 32 KB
        exact simulates_stopAudio d s
      · exact h.refl d
  · exact h.refl d

/-- **Parts 1 to 3** of a pass. -/
theorem simulates_tuneIn (d : Mp3Decoder σ) (env : AudioEnv σ) {s : Service σ} (h : Linked s)
    (htidy : Tidy s.eng) (hne : s.eng.gAuSt ≠ .idle) : Simulates d s (s.tuneIn env) := by
  have hwire := simulates_serviceWire d env h hne
  have hstrip := hwire.trans (simulates_stripHeader d hwire.linked)
  exact hstrip.trans (simulates_syncStream d env hstrip.linked (hstrip.run.tidy htidy))

/-! ## Playback -/

theorem startOutput_eng (start : SoundStart) (s : Service σ) :
    (s.startOutput start).eng = startOutput start s.eng := by
  rw [Service.startOutput, startOutput]
  split
  · cases hres : startDoubleBuffer start s.eng.out with
    | mk out started => cases started <;> rfl
  · rfl

theorem trimOrExit_eng (s : Service σ) : s.trimOrExit.eng = trimOrExit s.eng := by
  rw [Service.trimOrExit, trimOrExit]
  split
  · dsimp only
    split <;> rfl
  · rfl

/-- Playback is that of the engine. -/
theorem playback_eng (d : Mp3Decoder σ) (start : SoundStart) (s : Service σ) :
    (s.playback d start).eng = serviceAudio d start s.eng := by
  rw [Service.playback, serviceAudio]
  split
  · rw [trimOrExit_eng, startOutput_eng]
  · rfl

theorem linked_startOutput (start : SoundStart) {s : Service σ} (h : Linked s) :
    Linked (s.startOutput start) := by
  rw [Service.startOutput]
  split
  · cases start with
    -- without a channel or a double buffer the start ends in `StopAudio`
    | noChannel => exact linked_stopAudio _
    | refused => exact linked_stopAudio _
    | playing =>
        have hstream := (startDoubleBuffer_frame .playing s.eng.out).1
        refine ⟨hstream.trans h.stream, rfl, h.window, h.idle, fun hpls => h.pls hpls⟩
  · exact h

theorem linked_trimOrExit {s : Service σ} (h : Linked s) : Linked s.trimOrExit := by
  obtain ⟨hstream, hplaying, -⟩ := latencyTrim_frame s.eng.out
  rw [Service.trimOrExit]
  split
  · dsimp only
    split
    · -- everything is played out
      exact linked_stopAudio _
    · exact ⟨hstream.trans h.stream, h.chan.trans hplaying.symm, h.window, h.idle, h.pls⟩
  · exact h

theorem simulates_playback (d : Mp3Decoder σ) (start : SoundStart) {s : Service σ} (h : Linked s) :
    Simulates d s (s.playback d start) := by
  refine ⟨?_, ?_⟩
  · rw [playback_eng]
    exact EngineRun.one (.service start) rfl
  · rw [Service.playback]
    split
    · -- the pump touches the rings and the decoder alone, and the link names neither
      apply linked_trimOrExit
      apply linked_startOutput
      split
      · exact h
      · exact ⟨h.stream, h.chan, h.window, h.idle, h.pls⟩
    · exact h

/-- **A pass of `ServiceAudio`** is a run of the engine. -/
theorem simulates_serviceAudio (d : Mp3Decoder σ) (env : AudioEnv σ) {s : Service σ} (h : Linked s)
    (htidy : Tidy s.eng) : Simulates d s (s.serviceAudio d env) := by
  rw [Service.serviceAudio]
  split
  · exact h.refl d
  · rename_i hne
    have htune := simulates_tuneIn d env h htidy hne
    exact htune.trans (simulates_playback d env.start htune.linked)

/-! ## The listen -/

theorem simulates_toggleListen (d : Mp3Decoder σ) (alloc : Bool) (now : BitVec 32) {s : Service σ}
    (h : Linked s) : Simulates d s (s.toggleListen alloc now) := by
  rw [Service.toggleListen]
  split
  · -- the second click stops the listen
    exact simulates_stopAudio d s
  · rename_i hidle
    split
    · -- a playlist is under way already
      exact h.refl d
    · split
      · -- the playlist is asked for without a listen
        exact ⟨EngineRun.refl d s.eng, h.stream, h.chan, h.window, h.idle,
          fun _ => not_not.1 hidle⟩
      · exact h.refl d

/-- The stream starts from an engine at rest. -/
theorem simulates_startStream (d : Mp3Decoder σ) (target : CStr × Int × CStr) (alloc : Bool)
    (now : BitVec 32) {s : Service σ} (h : Linked s) (htidy : Tidy s.eng)
    (hidle : s.eng.gAuSt = .idle) :
    Simulates d s { s.startStream target alloc now with gPls := none } := by
  obtain ⟨host, port, path⟩ := target
  rw [Service.startStream]
  dsimp only
  split
  · -- the stream is there, and the phase is `http`
    refine ⟨EngineRun.one .tune (if_pos hidle), rfl, h.chan, h.window, ?_, ?_⟩
    · rintro ⟨⟩
    · rintro ⟨⟩
  · -- no memory for it: an engine at rest had no stream before, so nothing has changed
    have hnone : s.eng.out.gStream = false := (htidy.idle hidle).stream
    have hsame : { s.eng with out := { s.eng.out with gStream := false } } = s.eng := by
      rw [← hnone]
    refine ⟨?_, rfl, h.chan, h.window, h.idle, ?_⟩
    · show EngineRun d s.eng { s.eng with out := { s.eng.out with gStream := false } }
      rw [hsame]
      exact EngineRun.refl d s.eng
    · rintro ⟨⟩

theorem simulates_pumpPls (d : Mp3Decoder σ) (env : PlsEnv) {s : Service σ} (h : Linked s)
    (htidy : Tidy s.eng) : Simulates d s (s.pumpPls env) := by
  have hnone : Simulates d s { s with gPls := none } :=
    ⟨EngineRun.refl d s.eng, h.stream, h.chan, h.window, h.idle, fun hpls => by cases hpls⟩
  rw [Service.pumpPls]
  split
  · exact h.refl d
  · rename_i t hpls
    have hidle : s.eng.gAuSt = .idle := h.pls (by rw [hpls]; rfl)
    dsimp only
    split
    · -- the reply is not complete yet
      exact ⟨EngineRun.refl d s.eng, h.stream, h.chan, h.window, h.idle, fun _ => hidle⟩
    · split
      · -- the reply names a stream
        exact simulates_startStream d _ env.alloc env.now h htidy hidle
      · -- it names none
        exact hnone
    · -- the transaction has failed
      exact hnone

/-- **Every step of the service** is a run of the engine, and keeps the link. -/
theorem serviceStep_simulates {d : Mp3Decoder σ} {s s' : Service σ} {a : ServiceStep σ}
    (h : Linked s) (htidy : Tidy s.eng) (hstep : serviceStep d s a = some s') :
    Simulates d s s' := by
  cases a with
  | toggle alloc now =>
      cases hstep
      exact simulates_toggleListen d alloc now h
  | service env =>
      cases hstep
      exact simulates_serviceAudio d env h htidy
  | pls env =>
      cases hstep
      exact simulates_pumpPls d env h htidy
  | serverChange host port =>
      cases hstep
      exact ⟨EngineRun.refl d s.eng, h.stream, h.chan, h.window, h.idle, fun hpls => by cases hpls⟩
  | pump =>
      simp only [serviceStep, Option.ite_none_right_eq_some, Option.some.injEq] at hstep
      obtain ⟨⟨hplay, -⟩, rfl⟩ := hstep
      exact ⟨EngineRun.one .pump (if_pos hplay), h.stream, h.chan, h.window, h.idle, h.pls⟩
  | doubleBack =>
      simp only [serviceStep, Option.ite_none_right_eq_some, Option.some.injEq] at hstep
      obtain ⟨hplaying, rfl⟩ := hstep
      obtain ⟨hstream, hkeep, -⟩ := audioDoubleBack_frame s.eng.out
      exact ⟨EngineRun.one .doubleBack (if_pos hplaying), hstream.trans h.stream,
        h.chan.trans hkeep.symm, h.window, h.idle, h.pls⟩
  | quit =>
      cases hstep
      exact simulates_stopAudio d s

/-! ## Reachable states -/

/-- What holds of the globals of the audio part between two passes. -/
structure AudioInvariant (s : Service σ) : Prop where
  idle : s.eng.gAuSt = .idle → s.gStream = none ∧ s.gChan = false ∧ s.eng.out.gPlaying = false ∧
    s.gComp.length = 0 ∧ s.eng.out.gRingSkip = 0 ∧ s.eng.out.gDec.pcmWr = 0 ∧
    s.eng.out.gDec.pcmRd = 0 ∧ s.eng.out.gDec.compWr = 0 ∧ s.eng.out.gDec.compRd = 0
  tuning : s.eng.gAuSt = .http ∨ s.eng.gAuSt = .sync → s.gStream ≠ none ∧ s.gChan = false
  playing : s.eng.out.gPlaying = true ↔ s.gChan = true
  only_play : s.eng.out.gPlaying = true → s.eng.gAuSt = .play
  pls : s.gPls ≠ none → s.eng.gAuSt = .idle ∧ s.gStream = none

/-- The link, and the invariants of the engine. -/
structure Service.Inv (s : Service σ) : Prop where
  linked : Linked s
  tidy : Tidy s.eng
  inv : s.eng.Inv

theorem inv_launched (dec : σ) (host : CStr) (port : Int) : (Service.launched dec host port).Inv := by
  refine ⟨⟨rfl, rfl, Nat.zero_le _, fun _ => rfl, ?_⟩, ⟨?_, ?_, ?_⟩, Engine.Inv.of_idle rfl⟩
  · rintro ⟨⟩
  · intro _
    exact ⟨rfl, rfl, rfl, rfl, rfl, rfl⟩
  · rintro ⟨⟩
  · rintro ⟨⟩

theorem Service.Inv.step {d : Mp3Decoder σ} {s s' : Service σ} {a : ServiceStep σ} (h : s.Inv)
    (hstep : serviceStep d s a = some s') : s'.Inv := by
  have hsim := serviceStep_simulates h.linked h.tidy hstep
  exact ⟨hsim.linked, hsim.run.tidy h.tidy, hsim.run.inv h.inv⟩

theorem inv_run {d : Mp3Decoder σ} {dec : σ} {host : CStr} {port : Int}
    {steps : List (ServiceStep σ)} {s : Service σ}
    (hrun : run (serviceStep d) (Service.launched dec host port) steps = some s) : s.Inv :=
  run_invariant Service.Inv (fun _ _ _ hs hstep => hs.step hstep) (inv_launched dec host port) hrun

/-- **Refinement.** A run of the service is a run of the engine. -/
theorem service_refines_engine {d : Mp3Decoder σ} {s s' : Service σ} {steps : List (ServiceStep σ)}
    (h : s.Inv) (hrun : run (serviceStep d) s steps = some s') : EngineRun d s.eng s'.eng := by
  induction steps generalizing s with
  | nil =>
      cases hrun
      exact EngineRun.refl d _
  | cons a steps ih =>
      -- one step is a run of the engine, and the rest is one by the induction
      obtain ⟨t, hstep, hrest⟩ := Option.bind_eq_some_iff.1 hrun
      exact (serviceStep_simulates h.linked h.tidy hstep).run.trans (ih (h.step hstep) hrest)

theorem Service.Inv.audio {s : Service σ} (h : s.Inv) : AudioInvariant s := by
  -- no stream for the engine is none for the service
  have hstream : ∀ hdead : s.eng.out.gStream = false, s.gStream = none := by
    intro hdead
    rw [h.linked.stream] at hdead
    exact Option.isNone_iff_eq_none.1 (Option.not_isSome _ ▸ by rw [hdead]; rfl)
  -- and the output runs in playback alone
  have hquiet : s.eng.gAuSt ≠ .play → s.eng.out.gPlaying = false := by
    intro hne
    rw [Bool.eq_false_iff]
    intro hplaying
    exact hne (h.tidy.playing hplaying)
  refine ⟨?_, ?_, ?_, h.tidy.playing, ?_⟩
  · intro hidle
    have hrest := h.tidy.idle hidle
    have hplaying := hquiet (by rw [hidle]; exact App.AuState.noConfusion)
    refine ⟨hstream hrest.stream, h.linked.chan.trans hplaying, hplaying, ?_, hrest.skip,
      hrest.pcmWr, hrest.pcmRd, hrest.compWr, hrest.compRd⟩
    rw [h.linked.idle hidle]
    rfl
  · intro htuning
    have hplaying : s.eng.out.gPlaying = false := by
      apply hquiet
      rcases htuning with hst | hst
      · rw [hst]
        exact App.AuState.noConfusion
      · rw [hst]
        exact App.AuState.noConfusion
    refine ⟨?_, h.linked.chan.trans hplaying⟩
    intro hnone
    have hlive := h.linked.stream.symm.trans (h.inv.tuning htuning)
    rw [hnone] at hlive
    cases hlive
  · rw [h.linked.chan]
  · intro hpls
    have hidle := h.linked.pls (Option.isSome_iff_ne_none.2 hpls)
    exact ⟨hidle, hstream (h.tidy.idle hidle).stream⟩

/-- **The audio engine between two passes.** In every run, whatever the server, the memory and the Sound
Manager do, the globals of the audio part agree with its phase, and a playlist is asked for only while
there is no stream that its reply would overwrite. -/
theorem audio_engine_invariant (d : Mp3Decoder σ) (dec : σ) (host : CStr) (port : Int)
    (steps : List (ServiceStep σ)) (s : Service σ)
    (hrun : run (serviceStep d) (Service.launched dec host port) steps = some s) :
    AudioInvariant s :=
  (inv_run hrun).audio

/-- A poll of the playlist, whose reply names a stream. -/
def pollPls (rcv : List RcvResult) : PlsEnv where
  ot :=
    { promptEnv with
      snd := [.accepted 18]
      rcv := rcv }
  target := some (.lit "spot", 8000, .lit "/mount")
  alloc := true
  now := 0

/-- The playlist is asked for. -/
def asking : List (ServiceStep Unit) := [.toggle true 0, .pls (pollPls []), .pls (pollPls [])]

/-- Its reply starts the stream. -/
def tunedIn : List (ServiceStep Unit) := asking ++ [.pls (pollPls [.look .ordrel])]

/-- A response header and two frames. -/
def firstChunk : Chunk where
  bytes := [13, 10, 13, 10] ++ shortFrame ++ shortFrame
  nonempty := by simp
  fits := by decide

/-- A pass in which `OTRcv` gives these results. The decode task does not come to run. -/
def receive (rcv : List RcvResult) : AudioEnv Unit where
  ot :=
    { promptEnv with
      snd := [.accepted 100]
      rcv := rcv }
  rings := true
  task := true
  init := ()
  start := .playing

/-- The stream is opened, asked and synced. -/
def synced : List (ServiceStep Unit) :=
  tunedIn ++ [.service (receive []), .service (receive []),
    .service (receive [.chunk firstChunk true])]

/-- The decode task makes a pass, the stream ends, and the channel is refused. -/
def refusedStart : List (ServiceStep Unit) :=
  synced ++ [.pump, .service { receive [.look .ordrel] with start := .refused }]

theorem audio_engine_invariant_tunedIn :
    (∃ s, run (serviceStep silenceDecoder) (Service.launched () (.lit "spot") 70) tunedIn = some s ∧
      s.eng.gAuSt = .http ∧ s.gStream ≠ none ∧ AudioInvariant s) ∧
    ((run (serviceStep silenceDecoder) (Service.launched () (.lit "spot") 70) (refusedStart.take 8)).any fun s =>
      s.eng.gAuSt = .play ∧ s.gStream.isSome ∧ ringFill s.eng.out = 1152) ∧
    ∃ s, run (serviceStep silenceDecoder) (Service.launched () (.lit "spot") 70) refusedStart = some s ∧
      s.eng.gAuSt = .idle ∧ s.gStream = none ∧ AudioInvariant s := by
  refine ⟨?_, by decide +kernel, ?_⟩
  · have hsome : (run (serviceStep silenceDecoder) (Service.launched () (.lit "spot") 70)
        tunedIn).isSome := rfl
    obtain ⟨s, hs⟩ := Option.isSome_iff_exists.1 hsome
    have hinv := audio_engine_invariant silenceDecoder () (.lit "spot") 70 tunedIn s hs
    have hst : s.eng.gAuSt = .http := by
      have hget := congrArg (Option.map fun s : Service Unit => s.eng.gAuSt) hs
      exact Option.some.inj (hget.symm.trans (by decide))
    exact ⟨s, hs, hst, (hinv.tuning (Or.inl hst)).1, hinv⟩
  · have hsome : (run (serviceStep silenceDecoder) (Service.launched () (.lit "spot") 70)
        refusedStart).isSome := by decide +kernel
    obtain ⟨s, hs⟩ := Option.isSome_iff_exists.1 hsome
    have hinv := audio_engine_invariant silenceDecoder () (.lit "spot") 70 refusedStart s hs
    have hst : ∀ s ∈ run (serviceStep silenceDecoder) (Service.launched () (.lit "spot") 70) refusedStart,
        s.eng.gAuSt = .idle := by
      decide +kernel
    exact ⟨s, hs, hst s hs, (hinv.idle (hst s hs)).1, hinv⟩

end Casquinha.Audio

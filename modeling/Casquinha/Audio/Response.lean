import Casquinha.Audio.ServiceRuns

/-!
# What becomes of the response

Every byte that is drained from the stream is stripped, or committed to the compressed ring, or waits in the
window, and in this order (`Accounted`). The window is used until playback, the ring from then on. This is so
in every run, whatever the passes of the other parties do in between.
-/

set_option autoImplicit false

namespace Casquinha.Audio

open Lib Decode Transport

variable {σ : Type}

/-- The stream keeps its invariant, and what was drained from it is accounted for. -/
structure Accounted (s : Service σ) : Prop where
  stream : ∀ t, s.gStream = some t →
    Transport.Inv t ∧ t.drained = s.skipped ++ s.committed ++ s.gComp
  tuning : s.eng.gAuSt = .http ∨ s.eng.gAuSt = .sync → s.committed = []
  play : s.eng.gAuSt = .play → s.gComp = []

/-- Without a stream and out of a listen there is nothing to account for. -/
theorem accounted_of_idle {s : Service σ} (hstream : s.gStream = none) (hidle : s.eng.gAuSt = .idle) :
    Accounted s := by
  refine ⟨?_, ?_, ?_⟩
  · intro t ht
    rw [hstream] at ht
    cases ht
  · rw [hidle]
    rintro (hst | hst) <;> cases hst
  · rw [hidle]
    rintro ⟨⟩

theorem accounted_stopAudio (s : Service σ) : Accounted s.stopAudio := accounted_of_idle rfl rfl

/-- A step that leaves the stream, the phase, the window and the history alone. -/
theorem Accounted.of_same {s s' : Service σ} (h : Accounted s) (hstream : s'.gStream = s.gStream)
    (hst : s'.eng.gAuSt = s.eng.gAuSt) (hcomp : s'.gComp = s.gComp) (hskipped : s'.skipped = s.skipped)
    (hcommitted : s'.committed = s.committed) : Accounted s' := by
  refine ⟨?_, ?_, ?_⟩
  · rw [hstream, hskipped, hcommitted, hcomp]
    exact h.stream
  · rw [hst, hcommitted]
    exact h.tuning
  · rw [hst, hcomp]
    exact h.play

/-! ## The wire -/

/-- A drain of the stream into the ring, in playback. -/
theorem drainStreamToDec_eq {s : Service σ} (htidy : Tidy s.eng) (hplay : s.eng.gAuSt = .play)
    {t : CqTransport} (hstream : s.gStream = some t) :
    let n := min (cqDecringSpace s.eng.out.gDec).toNat t.data.length
    ∃ comp, s.drainStreamToDec =
      { s.setFeed ⟨filled s.eng.out.gDec comp n, s.committed ++ t.data.take n⟩ with
        gStream := some (cqTxDrain t n).2 } := by
  intro n
  have hsize : s.feed.ring.compSize ≠ 0 := by
    rw [show s.feed.ring = s.eng.out.gDec from rfl, htidy.compSize hplay]
    decide
  obtain ⟨comp, hloop⟩ := drainLoop_moves (t.data.length + 1) s.feed t hsize (Nat.lt_succ_self _)
  refine ⟨comp, ?_⟩
  rw [drainStreamToDec_of_some hstream, hloop]
  rfl

theorem accounted_drainStreamToDec {s : Service σ} (h : Accounted s) (htidy : Tidy s.eng)
    (hplay : s.eng.gAuSt = .play) : Accounted s.drainStreamToDec := by
  cases hstream : s.gStream with
  | none =>
      have hsame : s.drainStreamToDec = s := by simp only [Service.drainStreamToDec, hstream]
      rw [hsame]
      exact h
  | some t =>
      obtain ⟨comp, hdrain⟩ := drainStreamToDec_eq htidy hplay hstream
      obtain ⟨hinv, hdrained⟩ := h.stream t hstream
      rw [hdrain]
      refine ⟨?_, ?_, h.play⟩
      · intro u hu
        cases hu
        refine ⟨inv_cqTxDrain _ hinv, ?_⟩
        -- the window is empty, so what is committed comes last
        show t.drained ++ _ = s.skipped ++ (s.committed ++ _) ++ s.gComp
        rw [hdrained, h.play hplay, List.append_nil, List.append_nil, List.append_assoc]
      · -- in playback nothing is tuned in any more
        rintro (hst | hst)
        · cases hplay.symm.trans hst
        · cases hplay.symm.trans hst

theorem accounted_drainToComp {s : Service σ} (h : Accounted s) (hplay : s.eng.gAuSt ≠ .play) :
    Accounted s.drainToComp := by
  rw [Service.drainToComp]
  split
  · exact h
  · rename_i t hstream
    obtain ⟨hinv, hdrained⟩ := h.stream t hstream
    split
    · -- what is drained goes behind the window
      refine ⟨?_, h.tuning, fun hst => absurd hst hplay⟩
      intro u hu
      cases hu
      refine ⟨inv_cqTxDrain _ hinv, ?_⟩
      show t.drained ++ (cqTxDrain t (cqAudCompMax - s.gComp.length)).1 =
        s.skipped ++ s.committed ++ (s.gComp ++ (cqTxDrain t (cqAudCompMax - s.gComp.length)).1)
      rw [hdrained, List.append_assoc]
    · exact h

theorem accounted_drainWire {s : Service σ} (h : Accounted s) (htidy : Tidy s.eng) :
    Accounted s.drainWire := by
  rw [Service.drainWire]
  split
  · exact accounted_drainStreamToDec h htidy ‹_›
  · exact accounted_drainToComp h ‹_›

theorem accounted_polled (env : OtEnv) {s : Service σ} (h : Accounted s) {t : CqTransport}
    (hstream : s.gStream = some t) : Accounted { s with gStream := some (cqTxPoll env t) } := by
  obtain ⟨hinv, hdrained⟩ := h.stream t hstream
  refine ⟨?_, h.tuning, h.play⟩
  intro u hu
  cases hu
  refine ⟨inv_cqTxPoll env hinv, ?_⟩
  rw [drained_cqTxPoll env hinv]
  exact hdrained

theorem accounted_wireDied {s : Service σ} (h : Accounted s) (htidy : Tidy s.eng) :
    Accounted s.wireDied := by
  rw [Service.wireDied]
  split
  · -- the stream is gone, and the phase stays: there is no more to account for than the empty window
    rename_i hplay
    have hdrain := accounted_drainStreamToDec h htidy hplay
    have hst := (drainStreamToDec_frame s).1.trans hplay
    refine ⟨?_, ?_, fun _ => hdrain.play hst⟩
    · rintro t ⟨⟩
    · have hdied : (s.drainStreamToDec.freeStream).eng.gAuSt = .play := by
        show (streamDied s.drainStreamToDec.eng).gAuSt = .play
        rw [streamDied, if_pos hst]
        exact hst
      rw [hdied]
      rintro (hst | hst) <;> cases hst
  · exact accounted_stopAudio _

theorem accounted_serviceWire (d : Mp3Decoder σ) (env : AudioEnv σ) {s : Service σ}
    (h : Accounted s) (hlinked : Linked s) (htidy : Tidy s.eng) (hne : s.eng.gAuSt ≠ .idle) :
    Accounted (s.serviceWire env) := by
  rw [Service.serviceWire]
  split
  · exact h
  · rename_i t hstream
    have hpolled := accounted_polled env.ot h hstream
    have hdrain := accounted_drainWire hpolled htidy
    have hrun := (simulates_drainWire d (linked_polled env.ot hlinked hstream) hne).run
    dsimp only
    split
    · exact hdrain
    · exact accounted_wireDied hdrain (hrun.tidy htidy)

/-! ## Tuning in -/

theorem accounted_stripHeader {s : Service σ} (h : Accounted s) : Accounted s.stripHeader := by
  rw [Service.stripHeader]
  split
  · rename_i hhttp
    have hnone := h.tuning (Or.inl hhttp.1)
    split
    · -- the header moves from the front of the window to what is skipped
      refine ⟨?_, fun _ => hnone, ?_⟩
      · intro t ht
        obtain ⟨hinv, hdrained⟩ := h.stream t ht
        refine ⟨hinv, ?_⟩
        rw [hnone, List.append_nil] at hdrained ⊢
        rw [List.append_assoc, List.take_append_drop]
        exact hdrained
      · rintro ⟨⟩
    · split
      · exact accounted_stopAudio s
      · exact h
  · exact h

theorem accounted_syncStream (env : AudioEnv σ) {s : Service σ} (h : Accounted s)
    (hlinked : Linked s) : Accounted (s.syncStream env) := by
  rw [Service.syncStream]
  split
  · rename_i hsync
    have hnone := h.tuning (Or.inr hsync)
    split
    · rename_i off f hanswer
      dsimp only
      split
      · -- what `cq_mp3_sync` skips is skipped, and the rest is committed
        obtain ⟨hne, hlen⟩ := synced_window hlinked hanswer
        have hcommitted := (handOff_window env f { s with gComp := s.gComp.drop off } hne hlen).2
        refine ⟨?_, ?_, fun _ => rfl⟩
        · intro t ht
          obtain ⟨hinv, hdrained⟩ := h.stream t ht
          refine ⟨hinv, ?_⟩
          rw [hnone, List.append_nil] at hdrained
          -- nothing was committed before, so the window is cut in two without a gap
          refine Eq.trans ?_ (congrArg (fun bytes => (s.skipped ++ s.gComp.take off) ++ bytes ++ [])
            hcommitted.symm)
          show t.drained = s.skipped ++ s.gComp.take off ++ (s.committed ++ s.gComp.drop off) ++ []
          rw [hnone, List.nil_append, List.append_nil, List.append_assoc, List.take_append_drop]
          exact hdrained
        · rintro (hst | hst) <;> cases hst
      · exact accounted_stopAudio _
    · split
      · exact accounted_stopAudio s
      · exact h
  · exact h

theorem accounted_tuneIn (d : Mp3Decoder σ) (env : AudioEnv σ) {s : Service σ} (h : Accounted s)
    (hlinked : Linked s) (htidy : Tidy s.eng) (hne : s.eng.gAuSt ≠ .idle) :
    Accounted (s.tuneIn env) := by
  have hwire := simulates_serviceWire d env hlinked hne
  have hstrip := simulates_stripHeader d hwire.linked
  exact accounted_syncStream env
    (accounted_stripHeader (accounted_serviceWire d env h hlinked htidy hne)) hstrip.linked

/-! ## Playback and the listen -/

/-- A step behind which nothing new has been drained: the listen goes on, or it has ended. -/
structure Onward (s s' : Service σ) : Prop where
  pls_eq : s'.gPls = s.gPls
  fmt_eq : s'.gFmt = s.gFmt
  skipped_eq : s'.skipped = s.skipped
  committed_eq : s'.committed = s.committed
  goes : (s'.gStream = s.gStream ∧ s'.eng.gAuSt = s.eng.gAuSt) ∨
    (s'.gStream = none ∧ s'.eng.gAuSt = .idle)

theorem Onward.trans {s s' s'' : Service σ} (h : Onward s s') (h' : Onward s' s'') : Onward s s'' := by
  refine ⟨h'.pls_eq.trans h.pls_eq, h'.fmt_eq.trans h.fmt_eq, h'.skipped_eq.trans h.skipped_eq,
    h'.committed_eq.trans h.committed_eq, ?_⟩
  rcases h'.goes with ⟨hstream, hst⟩ | hended
  · rw [hstream, hst]
    exact h.goes
  · exact Or.inr hended

theorem onward_playback (d : Mp3Decoder σ) (start : SoundStart) (s : Service σ) :
    Onward s (s.playback d start) := by
  -- both parts go on or end in `StopAudio`
  have hstart : ∀ s : Service σ, Onward s (s.startOutput start) := by
    intro s
    rw [Service.startOutput]
    split
    · dsimp only
      split
      · exact ⟨rfl, rfl, rfl, rfl, Or.inl ⟨rfl, rfl⟩⟩
      · exact ⟨rfl, rfl, rfl, rfl, Or.inr ⟨rfl, rfl⟩⟩
    · exact ⟨rfl, rfl, rfl, rfl, Or.inl ⟨rfl, rfl⟩⟩
  have htrim : ∀ s : Service σ, Onward s s.trimOrExit := by
    intro s
    rw [Service.trimOrExit]
    split
    · dsimp only
      split
      · exact ⟨rfl, rfl, rfl, rfl, Or.inr ⟨rfl, rfl⟩⟩
      · exact ⟨rfl, rfl, rfl, rfl, Or.inl ⟨rfl, rfl⟩⟩
    · exact ⟨rfl, rfl, rfl, rfl, Or.inl ⟨rfl, rfl⟩⟩
  rw [Service.playback]
  split
  · refine Onward.trans ?_ ((hstart _).trans (htrim _))
    refine ⟨rfl, rfl, rfl, rfl, Or.inl ⟨rfl, ?_⟩⟩
    dsimp only
    split <;> rfl
  · exact ⟨rfl, rfl, rfl, rfl, Or.inl ⟨rfl, rfl⟩⟩

theorem accounted_startOutput (start : SoundStart) {s : Service σ} (h : Accounted s) :
    Accounted (s.startOutput start) := by
  rw [Service.startOutput]
  split
  · cases start with
    | noChannel => exact accounted_stopAudio _
    | refused => exact accounted_stopAudio _
    | playing => exact h.of_same rfl rfl rfl rfl rfl
  · exact h

theorem accounted_trimOrExit {s : Service σ} (h : Accounted s) : Accounted s.trimOrExit := by
  rw [Service.trimOrExit]
  split
  · dsimp only
    split
    · exact accounted_stopAudio _
    · exact h.of_same rfl rfl rfl rfl rfl
  · exact h

theorem accounted_playback (d : Mp3Decoder σ) (start : SoundStart) {s : Service σ}
    (h : Accounted s) : Accounted (s.playback d start) := by
  rw [Service.playback]
  split
  · -- the pump takes from the ring what was committed, and the account ends at the ring
    apply accounted_trimOrExit
    apply accounted_startOutput
    split
    · exact h
    · exact h.of_same rfl rfl rfl rfl rfl
  · exact h

theorem accounted_pumpPls (env : PlsEnv) {s : Service σ} (h : Accounted s) (hlinked : Linked s) :
    Accounted (s.pumpPls env) := by
  have hsame : ∀ pls : Option CqTransport, Accounted { s with gPls := pls } :=
    fun _ => h.of_same rfl rfl rfl rfl rfl
  rw [Service.pumpPls]
  split
  · exact h
  · rename_i t hpls
    have hidle : s.eng.gAuSt = .idle := hlinked.pls (by rw [hpls]; rfl)
    dsimp only
    split
    · exact hsame _
    · split
      · rename_i target _
        obtain ⟨host, port, path⟩ := target
        rw [Service.startStream]
        dsimp only
        split
        · -- nothing of the new response has been drained
          refine ⟨?_, fun _ => rfl, fun hst => by cases hst⟩
          intro t ht
          cases ht
          refine ⟨inv_cqTxStart _ (inv_cqTxNew _ _ _ _), ?_⟩
          show [] = [] ++ [] ++ s.gComp
          rw [hlinked.idle hidle]
          rfl
        · -- no memory: no stream
          exact accounted_of_idle rfl hidle
      · exact hsame _
    · exact hsame _

/-- **Every step** accounts for what it drains. -/
theorem accounted_serviceStep {d : Mp3Decoder σ} {s s' : Service σ} {a : ServiceStep σ}
    (h : Accounted s) (hinv : s.Inv) (hstep : serviceStep d s a = some s') : Accounted s' := by
  cases a with
  | toggle alloc now =>
      cases hstep
      rw [Service.toggleListen]
      split
      · exact accounted_stopAudio s
      · split
        · exact h
        · split
          · exact h.of_same rfl rfl rfl rfl rfl
          · exact h
  | service env =>
      cases hstep
      rw [Service.serviceAudio]
      split
      · exact h
      · rename_i hne
        exact accounted_playback d env.start (accounted_tuneIn d env h hinv.linked hinv.tidy hne)
  | pls env =>
      cases hstep
      exact accounted_pumpPls env h hinv.linked
  | serverChange host port =>
      cases hstep
      exact h.of_same rfl rfl rfl rfl rfl
  | pump =>
      simp only [serviceStep, Option.ite_none_right_eq_some, Option.some.injEq] at hstep
      obtain ⟨-, rfl⟩ := hstep
      exact h.of_same rfl rfl rfl rfl rfl
  | doubleBack =>
      simp only [serviceStep, Option.ite_none_right_eq_some, Option.some.injEq] at hstep
      obtain ⟨-, rfl⟩ := hstep
      exact h.of_same rfl rfl rfl rfl rfl
  | quit =>
      cases hstep
      exact accounted_stopAudio s

/-- The invariants of the service with the account of its response. -/
structure Service.Kept (s : Service σ) : Prop where
  inv : s.Inv
  accounted : Accounted s

theorem kept_launched (dec : σ) (host : CStr) (port : Int) : (Service.launched dec host port).Kept :=
  ⟨inv_launched dec host port, accounted_of_idle rfl rfl⟩

theorem Service.Kept.step {d : Mp3Decoder σ} {s s' : Service σ} {a : ServiceStep σ} (h : s.Kept)
    (hstep : serviceStep d s a = some s') : s'.Kept :=
  ⟨h.inv.step hstep, accounted_serviceStep h.accounted h.inv hstep⟩

end Casquinha.Audio

import Casquinha.Audio.LastDrain

/-!
# Tuning in

A response is a header and a body. It arrives in any pieces, and `ServiceAudio` looks at what has arrived so
far: at a window onto the response for the end of the header, then at a window onto the body for the first
frame. Both searches are stable, their answer does not change with more bytes (`headerEnd_window`,
`sync_window`), and the limits at which `ServiceAudio` gives up lie behind the answer. So it does not give up;
once the header and the first 32 KB of the body have been drained it plays (`Undecided`); and what it commits to the
ring is the body from the first frame on, as far as it has arrived (`tune_in_chunking`).
-/

set_option autoImplicit false

namespace Casquinha.Audio

open Lib Decode Transport

variable {σ : Type}

/-! ## The end of the header -/

section HeaderEnd

open Service

theorem headerEnd_le {window : Bytes} {i : Nat} (h : headerEnd window = some i) :
    i + 4 ≤ window.length := by
  induction window generalizing i with
  | nil => cases h
  | cons b rest ih =>
      rw [headerEnd] at h
      split at h
      · rename_i hpre
        cases h
        exact hpre.length_le
      · obtain ⟨j, hj, rfl⟩ := Option.map_eq_some_iff.1 h
        have := ih hj
        rw [List.length_cons]
        omega

/-- The header ends where it ended before. -/
theorem headerEnd_append {window : Bytes} (more : Bytes) {i : Nat}
    (h : headerEnd window = some i) : headerEnd (window ++ more) = some i := by
  induction window generalizing i with
  | nil => cases h
  | cons b rest ih =>
      rw [headerEnd] at h
      rw [List.cons_append, headerEnd]
      split at h
      · rename_i hpre
        have hmore : b :: rest <+: b :: (rest ++ more) := List.prefix_append (b :: rest) more
        rw [if_pos (hpre.trans hmore)]
        exact h
      · -- what is found further on lies within the window, so more bytes do not bring it here
        rename_i hnot
        obtain ⟨j, hj, rfl⟩ := Option.map_eq_some_iff.1 h
        have hlen := headerEnd_le hj
        rw [if_neg, ih hj]
        · rfl
        · intro hpre
          refine hnot (List.prefix_of_prefix_length_le hpre (List.prefix_append (b :: rest) more) ?_)
          show 4 ≤ rest.length + 1
          omega

/-- The end of the header is found as soon as it is there. -/
theorem headerEnd_of_append {window : Bytes} (more : Bytes) {i : Nat}
    (h : headerEnd (window ++ more) = some i) (hlen : i + 4 ≤ window.length) :
    headerEnd window = some i := by
  induction window generalizing i with
  | nil =>
      rw [List.length_nil] at hlen
      omega
  | cons b rest ih =>
      rw [List.cons_append, headerEnd] at h
      rw [headerEnd]
      split at h
      · -- the four bytes lie within the window
        rename_i hpre
        cases h
        rw [if_pos]
        exact List.prefix_of_prefix_length_le hpre (List.prefix_append (b :: rest) more) hlen
      · rename_i hnot
        obtain ⟨j, hj, rfl⟩ := Option.map_eq_some_iff.1 h
        rw [List.length_cons] at hlen
        rw [if_neg, ih hj (by omega)]
        · rfl
        · intro hpre
          exact hnot (hpre.trans (List.prefix_append (b :: rest) more))

/-- A window onto a response ends the header as the response does, or it does not reach that far. -/
theorem headerEnd_window {window response : Bytes} (hpre : window <+: response) {i : Nat}
    (h : headerEnd response = some i) :
    headerEnd window = some i ∨ (headerEnd window = none ∧ window.length < i + 4) := by
  obtain ⟨more, rfl⟩ := hpre
  rcases Nat.lt_or_ge window.length (i + 4) with hlt | hge
  · cases hwindow : headerEnd window with
    | none => exact Or.inr ⟨rfl, hlt⟩
    | some j =>
        left
        rw [← h, headerEnd_append more hwindow]
  · exact Or.inl (headerEnd_of_append more h hge)

end HeaderEnd

/-! ## A listen to a response -/

/-- The pieces of `R` arrive while the stream stays `RUNNING` and there is memory for the rings. Nobody
stops the listen. -/
def Delivers (R : Bytes) (s : Service σ) : ServiceStep σ → Prop
  | .service env => env.rings = true ∧ ∀ t, s.gStream = some t →
      (cqTxPoll env.ot t).status = .running ∧ received (cqTxPoll env.ot t).calls <+: R
  | .toggle _ _ | .quit => False
  | _ => True

instance decidableDelivers (R : Bytes) (s : Service σ) :
    ∀ a : ServiceStep σ, Decidable (Delivers R s a)
  | .service env => inferInstanceAs (Decidable (env.rings = true ∧ ∀ t ∈ s.gStream,
      (cqTxPoll env.ot t).status = .running ∧ received (cqTxPoll env.ot t).calls <+: R))
  | .toggle _ _ | .quit => isFalse id
  | .pls _ | .serverChange _ _ | .pump | .doubleBack => isTrue trivial

/-- The header of `R` ends with the CR LF CR LF at `i`, within the first 8 KB, and the sync answers `off` and
`f` on the first 32 KB of the body. -/
structure Tunable (R : Bytes) (i off : Nat) (f : CqMp3Frame) : Prop where
  header : Service.headerEnd R = some i
  header_le : i + 4 ≤ 8192
  sync : cqMp3Sync ((R.drop (i + 4)).take (32 * 1024)) = some (off, f)

/-- What has been stripped is known by the phase, and what has been committed is the body from the first
frame on. -/
structure Tuning (R : Bytes) (i off : Nat) (f : CqMp3Frame) (s : Service σ) : Prop where
  pls : s.gPls = none
  stream : ∀ t, s.gStream = some t → t.status = .running ∧ received t.calls <+: R
  http : s.eng.gAuSt = .http → s.skipped = []
  sync : s.eng.gAuSt = .sync → s.skipped = R.take (i + 4)
  play : s.eng.gAuSt = .play → s.skipped = R.take (i + 4 + off) ∧ s.gFmt = f
  committed : s.committed <+: R.drop (i + 4 + off)

theorem prefix_behind {R xs : Bytes} {n : Nat} (h : R.take n ++ xs <+: R) : xs <+: R.drop n := by
  rw [← List.prefix_append_right_inj (R.take n), List.take_append_drop]
  exact h

/-- What is accounted for has been received. -/
theorem prefix_of_stream {R : Bytes} {s : Service σ} (hacc : Accounted s) {t : CqTransport}
    (hstream : s.gStream = some t) (hrunning : t.status = .running) (hpre : received t.calls <+: R) :
    s.skipped ++ s.committed ++ s.gComp <+: R := by
  obtain ⟨hinv, hdrained⟩ := hacc.stream t hstream
  rcases hinv.kept_or_starved with hkept | ⟨hfailed, -⟩
  · rw [← hdrained]
    refine List.IsPrefix.trans ?_ hpre
    rw [← hkept]
    exact List.prefix_append _ _
  · cases hrunning.symm.trans hfailed

variable {R : Bytes} {i off : Nat} {f : CqMp3Frame}

/-- While the response is tuned in to, the window lies behind what has been stripped. -/
theorem Tuning.window {s : Service σ} (ht : Tuning R i off f s) (hkept : s.Kept)
    (htuning : s.eng.gAuSt = .http ∨ s.eng.gAuSt = .sync) : s.skipped ++ s.gComp <+: R := by
  obtain ⟨t, hstream⟩ := Option.ne_none_iff_exists'.1 (hkept.inv.audio.tuning htuning).1
  obtain ⟨hrunning, hpre⟩ := ht.stream t hstream
  have hall := prefix_of_stream hkept.accounted hstream hrunning hpre
  rw [hkept.accounted.tuning htuning, List.append_nil] at hall
  exact hall

theorem Service.Kept.of_simulates {d : Mp3Decoder σ} {s s' : Service σ} (hs : s.Kept)
    (hsim : Simulates d s s') (hacc : Accounted s') : s'.Kept :=
  ⟨⟨hsim.linked, hsim.run.tidy hs.inv.tidy, hsim.run.inv hs.inv.inv⟩, hacc⟩

/-! ## A pass -/

/-- What a drain leaves alone. -/
structure WireFrame (s s' : Service σ) : Prop where
  st_eq : s'.eng.gAuSt = s.eng.gAuSt
  pls_eq : s'.gPls = s.gPls
  fmt_eq : s'.gFmt = s.gFmt
  skipped_eq : s'.skipped = s.skipped
  stream : ∀ u, s'.gStream = some u → ∃ t, s.gStream = some t ∧ u.status = t.status ∧
    u.calls = t.calls
  committed : s'.committed = s.committed ∨ s.eng.gAuSt = .play ∧ s'.gStream ≠ none

theorem WireFrame.refl (s : Service σ) : WireFrame s s :=
  ⟨rfl, rfl, rfl, rfl, fun u hu => ⟨u, hu, rfl, rfl⟩, Or.inl rfl⟩

theorem wireFrame_drainWire {s : Service σ} (htidy : Tidy s.eng) : WireFrame s s.drainWire := by
  cases hstream : s.gStream with
  | none =>
      have hsame : s.drainWire = s := by
        simp only [Service.drainWire, Service.drainStreamToDec, Service.drainToComp, hstream, ite_self]
      rw [hsame]
      exact WireFrame.refl s
  | some t =>
      rw [Service.drainWire]
      split
      · -- in playback the drain commits, and the stream is still there
        rename_i hplay
        obtain ⟨comp, hdrain⟩ := drainStreamToDec_eq htidy hplay hstream
        rw [hdrain]
        refine ⟨rfl, rfl, rfl, rfl, ?_, Or.inr ⟨hplay, Option.some_ne_none _⟩⟩
        intro u hu
        cases hu
        exact ⟨t, hstream, rfl, rfl⟩
      · simp only [Service.drainToComp, hstream]
        split
        · -- while tuning in it fills the window
          refine ⟨rfl, rfl, rfl, rfl, ?_, Or.inl rfl⟩
          intro u hu
          cases hu
          exact ⟨t, hstream, rfl, rfl⟩
        · exact WireFrame.refl s

/-- The wire of a pass in which the stream stays `RUNNING`. -/
theorem Tuning.wire {s : Service σ} (ht : Tuning R i off f s) (hkept : s.Kept) (d : Mp3Decoder σ)
    {env : AudioEnv σ} (hdelivers : Delivers R s (.service env)) (hne : s.eng.gAuSt ≠ .idle) :
    Tuning R i off f (s.serviceWire env) ∧ (s.serviceWire env).eng.gAuSt ≠ .idle := by
  cases hstream : s.gStream with
  | none =>
      have hsame : s.serviceWire env = s := by simp only [Service.serviceWire, hstream]
      rw [hsame]
      exact ⟨ht, hne⟩
  | some t =>
      obtain ⟨hrunning, hpre⟩ := hdelivers.2 t hstream
      have hacc := accounted_serviceWire d env hkept.accounted hkept.inv.linked hkept.inv.tidy hne
      have hwire : s.serviceWire env = { s with gStream := some (cqTxPoll env.ot t) }.drainWire := by
        simp only [Service.serviceWire, hstream]
        exact if_pos hrunning
      have hframe := wireFrame_drainWire (s := { s with gStream := some (cqTxPoll env.ot t) })
        hkept.inv.tidy
      rw [← hwire] at hframe
      -- the drain leaves the status and the history of the transaction alone
      have hlive : ∀ u, (s.serviceWire env).gStream = some u →
          u.status = .running ∧ received u.calls <+: R := by
        intro u hu
        obtain ⟨t', ht', hstatus, hcalls⟩ := hframe.stream u hu
        cases ht'
        rw [hstatus, hcalls]
        exact ⟨hrunning, hpre⟩
      have hphase : (s.serviceWire env).eng.gAuSt = s.eng.gAuSt := hframe.st_eq
      have hskipped : (s.serviceWire env).skipped = s.skipped := hframe.skipped_eq
      refine ⟨⟨hframe.pls_eq.trans ht.pls, hlive, ?_, ?_, ?_, ?_⟩, by rw [hphase]; exact hne⟩
      · rw [hphase, hskipped]
        exact ht.http
      · rw [hphase, hskipped]
        exact ht.sync
      · rw [hphase, hskipped, hframe.fmt_eq]
        exact ht.play
      · rcases hframe.committed with hsame | ⟨hplay, hsome⟩
        · rw [hsame]
          exact ht.committed
        · -- everything that was drained in playback has been committed
          obtain ⟨u, hu⟩ := Option.ne_none_iff_exists'.1 hsome
          obtain ⟨hurunning, hupre⟩ := hlive u hu
          have hall := prefix_of_stream hacc hu hurunning hupre
          rw [hacc.play (hphase.trans hplay), List.append_nil, hskipped, (ht.play hplay).1] at hall
          exact prefix_behind hall

/-- **The header** is stripped as soon as it is there, and it is there within the limit. -/
theorem Tuning.strip (hR : Tunable R i off f) {s : Service σ} (ht : Tuning R i off f s)
    (hkept : s.Kept) (hne : s.eng.gAuSt ≠ .idle) :
    Tuning R i off f s.stripHeader ∧ s.stripHeader.eng.gAuSt ≠ .idle := by
  rw [Service.stripHeader]
  split
  · rename_i hhttp
    have hwindow := ht.window hkept (Or.inl hhttp.1)
    rw [ht.http hhttp.1, List.nil_append] at hwindow
    split
    · -- the end of the header is that of the response
      rename_i j hfound
      have hi : some j = some i := by
        rcases headerEnd_window hwindow hR.header with h | ⟨hnone, -⟩
        · exact hfound.symm.trans h
        · cases hnone.symm.trans hfound
      cases hi
      have hstripped : s.gComp.take (i + 4) = R.take (i + 4) := by
        obtain ⟨more, hmore⟩ := hwindow
        rw [← hmore, List.take_append_of_le_length (headerEnd_le hfound)]
      refine ⟨⟨ht.pls, ht.stream, App.AuState.noConfusion, fun _ => ?_, App.AuState.noConfusion,
        ht.committed⟩, App.AuState.noConfusion⟩
      show s.skipped ++ s.gComp.take (i + 4) = R.take (i + 4)
      rw [ht.http hhttp.1, List.nil_append, hstripped]
    · -- it is not there yet, so the window is within the limit
      rename_i hnone
      have hshort : ¬ 8192 < s.gComp.length := by
        rcases headerEnd_window hwindow hR.header with h | ⟨-, hlt⟩
        · cases hnone.symm.trans h
        · have := hR.header_le
          omega
      rw [if_neg hshort]
      exact ⟨ht, hne⟩
  · exact ⟨ht, hne⟩

/-- **The first frame** is that of the body, and it is found within the limit. -/
theorem Tuning.syncStream (hR : Tunable R i off f) {s : Service σ} (ht : Tuning R i off f s)
    (hkept : s.Kept) {env : AudioEnv σ} (hrings : env.rings = true) (hne : s.eng.gAuSt ≠ .idle) :
    Tuning R i off f (s.syncStream env) ∧ (s.syncStream env).eng.gAuSt ≠ .idle := by
  rw [Service.syncStream]
  split
  · rename_i hsync
    have hwindow := ht.window hkept (Or.inr hsync)
    rw [ht.sync hsync] at hwindow
    have hbody := prefix_behind hwindow
    have hanswer := sync_window hbody hR.sync
    split
    · -- the answer on the window is that on the body
      rename_i off' f' hfound
      have heq : some (off', f') = some (off, f) := by
        rcases hanswer with h | ⟨hnone, -⟩
        · exact hfound.symm.trans h
        · cases hnone.symm.trans hfound
      cases heq
      have hlt : off < s.gComp.length := (sync_some hfound).1.lt_length
      obtain ⟨hrest, hlen⟩ := synced_window hkept.inv.linked hfound
      have hcommitted := (handOff_window env f { s with gComp := s.gComp.drop off } hrest hlen).2
      refine ⟨⟨ht.pls, ht.stream, App.AuState.noConfusion, App.AuState.noConfusion,
        fun _ => ⟨?_, rfl⟩, ?_⟩, App.AuState.noConfusion⟩
      · -- what is skipped: the header, and the body up to the frame
        show s.skipped ++ s.gComp.take off = R.take (i + 4 + off)
        have hsplit : R.take (i + 4 + off) = R.take (i + 4) ++ (R.drop (i + 4)).take off :=
          List.take_add
        obtain ⟨more, hmore⟩ := hbody
        rw [hsplit, ht.sync hsync, ← hmore, List.take_append_of_le_length hlt.le]
      · -- what is committed: the body from the frame on, as far as the window reaches
        refine List.IsPrefix.trans ⟨[], (List.append_nil _).trans hcommitted⟩ ?_
        show s.committed ++ s.gComp.drop off <+: R.drop (i + 4 + off)
        obtain ⟨more, hmore⟩ := hbody
        rw [hkept.accounted.tuning (Or.inr hsync), List.nil_append, ← List.drop_drop, ← hmore,
          List.drop_append_of_le_length hlt.le]
        exact List.prefix_append _ _
    · -- there is no answer yet, so the window is within the limit
      rename_i hnone
      have hshort : ¬ 32 * 1024 < s.gComp.length := by
        rcases hanswer with h | ⟨-, hlt⟩
        · cases hnone.symm.trans h
        · exact Nat.not_lt.2 (Nat.le_of_lt (Nat.lt_of_lt_of_le hlt (Nat.min_le_left _ _)))
      rw [if_neg hshort]
      exact ⟨ht, hne⟩
  · exact ⟨ht, hne⟩

/-- Without the end of the header, less than the header is in the window. -/
theorem Tuning.http_short (hR : Tunable R i off f) {s : Service σ} (ht : Tuning R i off f s) (hkept : s.Kept)
    (hhttp : s.stripHeader.eng.gAuSt = .http) :
    s.eng.gAuSt = .http ∧ s.stripHeader = s ∧ s.gComp.length < i + 4 := by
  rw [Service.stripHeader] at hhttp ⊢
  split at hhttp
  · rename_i hlook
    rw [if_pos hlook]
    split at hhttp
    · cases hhttp
    · rename_i hnone
      split at hhttp
      · cases hhttp
      · rename_i hwithin
        have hwindow := ht.window hkept (Or.inl hlook.1)
        rw [ht.http hlook.1, List.nil_append] at hwindow
        rw [if_neg hwithin]
        refine ⟨hlook.1, rfl, ?_⟩
        rcases headerEnd_window hwindow hR.header with h | ⟨-, hlt⟩
        · cases hnone.symm.trans h
        · exact hlt
  · rename_i hlook
    rw [if_neg hlook]
    refine ⟨hhttp, rfl, ?_⟩
    have hfew : ¬ 4 ≤ s.gComp.length := fun hle => hlook ⟨hhttp, hle⟩
    omega

/-- Without a first frame, less than 32 KB of the body are in the window, and less than all of it. -/
theorem Tuning.sync_short (hR : Tunable R i off f) {s : Service σ} (ht : Tuning R i off f s) (hkept : s.Kept)
    {env : AudioEnv σ} (hsync : (s.syncStream env).eng.gAuSt = .sync) :
    s.eng.gAuSt = .sync ∧ s.syncStream env = s ∧
      s.gComp.length < min (32 * 1024) (R.drop (i + 4)).length := by
  rw [Service.syncStream] at hsync ⊢
  split at hsync
  · rename_i hlook
    rw [if_pos hlook]
    have hwindow := ht.window hkept (Or.inr hlook)
    rw [ht.sync hlook] at hwindow
    split at hsync
    · split at hsync <;> cases hsync
    · rename_i hnone
      split at hsync
      · cases hsync
      · rename_i hwithin
        rw [if_neg hwithin]
        refine ⟨hlook, rfl, ?_⟩
        rcases sync_window (prefix_behind hwindow) hR.sync with h | ⟨-, hlt⟩
        · cases hnone.symm.trans h
        · exact hlt
  · rename_i hlook
    exact absurd hsync hlook

/-- Part 3 does not go back to the header. -/
theorem syncStream_eq_of_http {s : Service σ} {env : AudioEnv σ} (hhttp : (s.syncStream env).eng.gAuSt = .http) :
    s.syncStream env = s := by
  rw [Service.syncStream] at hhttp ⊢
  split at hhttp
  · rename_i hsync
    split at hhttp
    · split at hhttp <;> cases hhttp
    · split at hhttp
      · cases hhttp
      · cases hsync.symm.trans hhttp
  · rename_i hno
    rw [if_neg hno]

/-- As long as `ServiceAudio` tunes in, not all of the header and the first 32 KB of the body have been drained. -/
def Undecided (R : Bytes) (i : Nat) (s : Service σ) : Prop :=
  s.eng.gAuSt = .http ∨ s.eng.gAuSt = .sync →
    ∀ t, s.gStream = some t → t.drained.length < min R.length (i + 4 + 32768)

theorem Undecided.plays {s : Service σ} (hs : Undecided R i s) (hne : s.eng.gAuSt ≠ .idle) {t : CqTransport}
    (ht : s.gStream = some t) (hdrained : min R.length (i + 4 + 32768) ≤ t.drained.length) : s.eng.gAuSt = .play := by
  cases hst : s.eng.gAuSt with
  | play => rfl
  | idle => exact absurd hst hne
  | http => exact absurd (hs (Or.inl hst) t ht) (Nat.not_lt.2 hdrained)
  | sync => exact absurd (hs (Or.inr hst) t ht) (Nat.not_lt.2 hdrained)

theorem Undecided.onward {s s' : Service σ} (hs : Undecided R i s) (h : Onward s s') : Undecided R i s' := by
  intro htuning t ht
  rcases h.goes with ⟨hstream, hst⟩ | ⟨hstream, -⟩
  · rw [hst] at htuning
    exact hs htuning t (hstream ▸ ht)
  · cases hstream.symm.trans ht

/-- **Parts 1 to 3** of a pass. -/
theorem Tuning.tuneIn (hR : Tunable R i off f) {s : Service σ} (ht : Tuning R i off f s)
    (hkept : s.Kept) (d : Mp3Decoder σ) {env : AudioEnv σ}
    (hdelivers : Delivers R s (.service env)) (hne : s.eng.gAuSt ≠ .idle) :
    Tuning R i off f (s.tuneIn env) ∧ (s.tuneIn env).eng.gAuSt ≠ .idle ∧ Undecided R i (s.tuneIn env) := by
  have hwireKept : (s.serviceWire env).Kept :=
    hkept.of_simulates (simulates_serviceWire d env hkept.inv.linked hne)
      (accounted_serviceWire d env hkept.accounted hkept.inv.linked hkept.inv.tidy hne)
  obtain ⟨hwire, hwireNe⟩ := ht.wire hkept d hdelivers hne
  have hstripKept : (s.serviceWire env).stripHeader.Kept :=
    hwireKept.of_simulates (simulates_stripHeader d hwireKept.inv.linked)
      (accounted_stripHeader hwireKept.accounted)
  obtain ⟨hstrip, hstripNe⟩ := hwire.strip hR hwireKept hwireNe
  obtain ⟨hsynced, hsyncedNe⟩ := hstrip.syncStream hR hstripKept hdelivers.1 hstripNe
  refine ⟨hsynced, hsyncedNe, ?_⟩
  have hheader := headerEnd_le hR.header
  have hacc : Accounted (s.tuneIn env) := accounted_syncStream env hstripKept.accounted hstripKept.inv.linked
  rintro hphase t hstream
  obtain ⟨-, hdrained⟩ := hacc.stream t hstream
  rw [hacc.tuning hphase, List.append_nil] at hdrained
  rw [hdrained, List.length_append]
  rcases hphase with hhttp | hsync
  · -- what has been drained is the window, and the window is too short for the header
    have hsame : s.tuneIn env = (s.serviceWire env).stripHeader := syncStream_eq_of_http hhttp
    rw [hsame] at hhttp ⊢
    obtain ⟨hlooked, hstripped, hshort⟩ := hwire.http_short hR hwireKept hhttp
    rw [hstripped, hwire.http hlooked, List.length_nil]
    omega
  · -- what has been drained is the header and the window
    obtain ⟨hlooked, hsame, hshort⟩ := hstrip.sync_short hR hstripKept hsync
    rw [show s.tuneIn env = (s.serviceWire env).stripHeader from hsame, hstrip.sync hlooked, List.length_take]
    rw [List.length_drop] at hshort
    omega

theorem Tuning.onward {s s' : Service σ} (ht : Tuning R i off f s) (h : Onward s s') :
    Tuning R i off f s' := by
  have hcommitted : s'.committed <+: R.drop (i + 4 + off) := by
    rw [h.committed_eq]
    exact ht.committed
  rcases h.goes with ⟨hstream, hst⟩ | ⟨hstream, hst⟩
  · -- the listen goes on
    refine ⟨h.pls_eq.trans ht.pls, ?_, ?_, ?_, ?_, hcommitted⟩
    · rw [hstream]
      exact ht.stream
    · rw [hst, h.skipped_eq]
      exact ht.http
    · rw [hst, h.skipped_eq]
      exact ht.sync
    · rw [hst, h.skipped_eq, h.fmt_eq]
      exact ht.play
  · -- it has ended: no stream, and none of the phases of a listen
    refine ⟨h.pls_eq.trans ht.pls, ?_, ?_, ?_, ?_, hcommitted⟩
    · intro t htt
      cases hstream.symm.trans htt
    · intro hhttp
      cases hst.symm.trans hhttp
    · intro hsync
      cases hst.symm.trans hsync
    · intro hplay
      cases hst.symm.trans hplay

/-- **Every step** of a listen to the response. -/
theorem Tuning.step (hR : Tunable R i off f) {d : Mp3Decoder σ} {s s' : Service σ}
    {a : ServiceStep σ} (h : s.Kept ∧ Tuning R i off f s ∧ Undecided R i s) (hdelivers : Delivers R s a)
    (hstep : serviceStep d s a = some s') : s'.Kept ∧ Tuning R i off f s' ∧ Undecided R i s' := by
  obtain ⟨hkept, ht, hundecided⟩ := h
  refine ⟨hkept.step hstep, ?_⟩
  have honward : ∀ {s'}, Onward s s' → Tuning R i off f s' ∧ Undecided R i s' :=
    fun h => ⟨ht.onward h, hundecided.onward h⟩
  cases a with
  | toggle alloc now => exact hdelivers.elim
  | quit => exact hdelivers.elim
  | service env =>
      cases hstep
      rw [Service.serviceAudio]
      split
      · exact ⟨ht, hundecided⟩
      · rename_i hne
        obtain ⟨htuned, -, hundecided'⟩ := ht.tuneIn hR hkept d hdelivers hne
        have hplayback := onward_playback d env.start (s.tuneIn env)
        exact ⟨htuned.onward hplayback, hundecided'.onward hplayback⟩
  | pls env =>
      -- no playlist is asked for during a listen
      cases hstep
      have hsame : s.pumpPls env = s := by simp only [Service.pumpPls, ht.pls]
      rw [hsame]
      exact ⟨ht, hundecided⟩
  | serverChange host port =>
      cases hstep
      exact honward ⟨ht.pls.symm, rfl, rfl, rfl, Or.inl ⟨rfl, rfl⟩⟩
  | pump =>
      simp only [serviceStep, Option.ite_none_right_eq_some, Option.some.injEq] at hstep
      obtain ⟨-, rfl⟩ := hstep
      exact honward ⟨rfl, rfl, rfl, rfl, Or.inl ⟨rfl, rfl⟩⟩
  | doubleBack =>
      simp only [serviceStep, Option.ite_none_right_eq_some, Option.some.injEq] at hstep
      obtain ⟨-, rfl⟩ := hstep
      exact honward ⟨rfl, rfl, rfl, rfl, Or.inl ⟨rfl, rfl⟩⟩

/-- A reply that sets the engine going has named a stream, and there was memory for it. -/
theorem pumpPls_of_http {s : Service σ} (hidle : s.eng.gAuSt = .idle) {pls : PlsEnv}
    (hhttp : (s.pumpPls pls).eng.gAuSt = .http) : ∃ target,
      s.pumpPls pls = { s.startStream target true pls.now with gPls := none } := by
  -- in every other branch the phase stays idle
  have hstays : ∀ {s' : Service σ}, s'.eng.gAuSt = .http → s'.eng.gAuSt ≠ s.eng.gAuSt := by
    intro s' hhttp hst
    rw [hst, hidle] at hhttp
    cases hhttp
  rw [Service.pumpPls] at hhttp ⊢
  cases hpls : s.gPls with
  | none =>
      simp only [hpls] at hhttp
      exact absurd rfl (hstays hhttp)
  | some t =>
      simp only [hpls] at hhttp ⊢
      cases hstatus : (cqTxPoll pls.ot t).status with
      | running =>
          simp only [hstatus] at hhttp
          exact absurd rfl (hstays hhttp)
      | failed =>
          simp only [hstatus] at hhttp
          exact absurd rfl (hstays hhttp)
      | done =>
          cases htarget : pls.target with
          | none =>
              simp only [hstatus, htarget] at hhttp
              exact absurd rfl (hstays hhttp)
          | some target =>
              refine ⟨target, ?_⟩
              cases halloc : pls.alloc with
              | true => simp only
              | false =>
                  simp only [hstatus, htarget, halloc, Service.startStream] at hhttp
                  exact absurd hhttp (by rw [hidle]; exact App.AuState.noConfusion)

/-- The listen begins: the reply of the playlist has started the stream. -/
theorem tuning_started {s : Service σ} (hidle : s.eng.gAuSt = .idle) {pls : PlsEnv}
    (hhttp : (s.pumpPls pls).eng.gAuSt = .http) (hR : Tunable R i off f) :
    Tuning R i off f (s.pumpPls pls) ∧ Undecided R i (s.pumpPls pls) := by
  obtain ⟨target, hstarted⟩ := pumpPls_of_http hidle hhttp
  have hheader := headerEnd_le hR.header
  rw [hstarted]
  refine ⟨⟨rfl, ?_, fun _ => rfl, App.AuState.noConfusion, App.AuState.noConfusion, List.nil_prefix⟩, ?_⟩
  · intro t ht
    cases ht
    exact ⟨rfl, List.nil_prefix⟩
  · rintro - t ht
    cases ht
    show 0 < min R.length (i + 4 + 32768)
    omega

/-- **Tuning in does not depend on chunking.** A listen begins, and its stream delivers a response in any
pieces, between any other steps. If the header ends within 8 KB and the first 32 KB of the body sync,
`ServiceAudio` does not stop the engine in parts 1 to 3 of a pass; once the header and these 32 KB (or all of a shorter
body) have been drained, it plays, in the format of the first frame; and what it has committed to the ring is a prefix
of the body from that frame on. -/
theorem tune_in_chunking (d : Mp3Decoder σ) (dec : σ) (host : CStr) (port : Int)
    (before : List (ServiceStep σ)) (s₀ : Service σ) (pls : PlsEnv)
    (hbefore : run (serviceStep d) (Service.launched dec host port) before = some s₀)
    (hidle : s₀.eng.gAuSt = .idle) (hstart : (s₀.pumpPls pls).eng.gAuSt = .http)
    (R : Bytes) (i off : Nat) (f : CqMp3Frame) (hheader : Service.headerEnd R = some i)
    (hlimit : i + 4 ≤ 8192)
    (hsync : cqMp3Sync ((R.drop (i + 4)).take 32768) = some (off, f))
    (steps : List (ServiceStep σ)) (s : Service σ)
    (hdelivers : Meets (serviceStep d) (Delivers R) (s₀.pumpPls pls) steps)
    (hrun : run (serviceStep d) (s₀.pumpPls pls) steps = some s) :
    (s.eng.gAuSt = .play → s.gFmt = f) ∧ s.committed <+: (R.drop (i + 4)).drop off ∧
      (s.eng.gAuSt ≠ .idle → ∀ t, s.gStream = some t → min R.length (i + 4 + 32768) ≤ t.drained.length →
        s.eng.gAuSt = .play) ∧
      ∀ env, Delivers R s (.service env) → s.eng.gAuSt ≠ .idle →
        (s.tuneIn env).eng.gAuSt ≠ .idle ∧ ((s.tuneIn env).eng.gAuSt = .play → (s.tuneIn env).gFmt = f) ∧
          (s.tuneIn env).committed <+: (R.drop (i + 4)).drop off ∧
          ∀ t, (s.tuneIn env).gStream = some t → min R.length (i + 4 + 32768) ≤ t.drained.length →
            (s.tuneIn env).eng.gAuSt = .play := by
  have hR : Tunable R i off f := ⟨hheader, hlimit, hsync⟩
  have hkept₀ : s₀.Kept := run_invariant Service.Kept (fun _ _ _ h hstep => h.step hstep)
    (kept_launched dec host port) hbefore
  have hkept₁ : (s₀.pumpPls pls).Kept := hkept₀.step (d := d) (a := .pls pls) rfl
  -- from the start of the stream on, every step of the run keeps the two invariants
  obtain ⟨hkept, ht, hundecided⟩ : s.Kept ∧ Tuning R i off f s ∧ Undecided R i s :=
    run_invariant_of_meets (fun s => s.Kept ∧ Tuning R i off f s ∧ Undecided R i s)
      (fun _ _ _ h hok hstep => Tuning.step hR h hok hstep) ⟨hkept₁, tuning_started hidle hstart hR⟩
      hdelivers hrun
  rw [List.drop_drop]
  refine ⟨fun hplay => (ht.play hplay).2, ht.committed, fun hne t => hundecided.plays hne, ?_⟩
  intro env hdelivers hne
  obtain ⟨ht', hne', hundecided'⟩ := ht.tuneIn hR hkept d hdelivers hne
  exact ⟨hne', fun hplay => (ht'.play hplay).2, ht'.committed, fun t => hundecided'.plays hne'⟩

/-- Two frames behind a header, cut within the end of the header and within the second frame. -/
def pieces : List Chunk :=
  [⟨[13, 10, 13], by decide, by decide⟩, ⟨[10] ++ shortFrame ++ shortFrame.take 2, by decide, by decide⟩,
    ⟨shortFrame.drop 2, by decide, by decide⟩]

/-- The stream is opened and asked, and the pieces come in. -/
def piecewise : List (ServiceStep Unit) :=
  [.service (receive []), .service (receive [])] ++
    pieces.map fun c => .service (receive [.chunk c true])

theorem tune_in_chunking_pieces : ∃ s₀ s,
    run (serviceStep silenceDecoder) (Service.launched () (.lit "spot") 70) asking = some s₀ ∧
      run (serviceStep silenceDecoder) (s₀.pumpPls (pollPls [.look .ordrel])) piecewise = some s ∧
      s.eng.gAuSt = .play ∧ s.committed <+: shortFrame ++ shortFrame := by
  have hasked : (run (serviceStep silenceDecoder) (Service.launched () (.lit "spot") 70)
      asking).isSome := by decide +kernel
  obtain ⟨s₀, hs₀⟩ := Option.isSome_iff_exists.1 hasked
  have hstart : ∀ s₀ ∈ run (serviceStep silenceDecoder) (Service.launched () (.lit "spot") 70) asking,
      s₀.eng.gAuSt = .idle ∧ (s₀.pumpPls (pollPls [.look .ordrel])).eng.gAuSt = .http ∧
        (run (serviceStep silenceDecoder) (s₀.pumpPls (pollPls [.look .ordrel])) piecewise).isSome := by
    decide +kernel
  -- the pieces are delivered: the steps are run, and the poll of each pass is looked at
  have hdelivers : ∀ s₀ ∈ run (serviceStep silenceDecoder) (Service.launched () (.lit "spot") 70) asking,
      Meets (serviceStep silenceDecoder) (Delivers ([13, 10, 13, 10] ++ (shortFrame ++ shortFrame)))
        (s₀.pumpPls (pollPls [.look .ordrel])) piecewise ∧
      ∀ s ∈ run (serviceStep silenceDecoder) (s₀.pumpPls (pollPls [.look .ordrel])) piecewise,
        s.eng.gAuSt ≠ .idle ∧ s.gStream.map (fun t => t.drained.length) = some 52 := by
    decide +kernel
  obtain ⟨hidle, hhttp, hsome⟩ := hstart s₀ hs₀
  obtain ⟨hmeets, hall⟩ := hdelivers s₀ hs₀
  obtain ⟨s, hs⟩ := Option.isSome_iff_exists.1 hsome
  obtain ⟨hne, hdrained⟩ := hall s hs
  obtain ⟨t, ht, hlen⟩ := Option.map_eq_some_iff.1 hdrained
  obtain ⟨-, hprefix, hplays, -⟩ := tune_in_chunking silenceDecoder () (.lit "spot") 70 asking s₀ _ hs₀ hidle hhttp
    ([13, 10, 13, 10] ++ (shortFrame ++ shortFrame)) 0 0 ⟨2, 8, 24000, 1, 576, 24⟩ (by decide)
    (by decide) (by decide) piecewise s hmeets hs
  exact ⟨s₀, s, hs₀, hs, hplays hne t ht (by rw [hlen]; decide), hprefix⟩

end Casquinha.Audio

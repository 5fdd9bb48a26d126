import Casquinha.App.Adoption
import Casquinha.Wire.Truncation

/-!
# Cut-off replies

The transport hands over whatever has arrived when a connection ends, and the parser takes a document
as it comes: a missing state reads as stopped, a missing `ts` is not guarded. An empty reply therefore
stops a playing display (`empty_reply_stops`). What survives a cut is what the bytes before the cut
say: with the state line still whole the display keeps to the states it may have, and with the first
byte of the track still there the track is not blanked (`cutOff_law`).
-/

set_option autoImplicit false

namespace Casquinha.App

open Lib Wire

/-- A piece of a document without an error key has none either. -/
theorem healthyReply_cut {P D : Bytes} (hP : P <+: D) (hD : replyError D = none) :
    healthyReply P = some (cqNowFromResponse P) := by
  have hnone : replyError P = none := get_prefix_eq_none hP hD
  simp only [healthyReply, hnone]
  rfl

/-- A healthy reply is dropped, or adopted as it was parsed. -/
theorem replyShown_of_healthy (env : Env) (s : Globals) {data : Bytes} {n : CqNow}
    (h : healthyReply data = some n) :
    (0 < n.ts ∧ n.ts < s.shown.gGuard.lastTs ∧ replyShown env s data = s.shown) ∨
      (replyShown env s data).gSnap = heldVolume env s n := by
  by_cases hstale : 0 < n.ts ∧ n.ts < s.shown.gGuard.lastTs
  · exact Or.inl ⟨hstale.1, hstale.2, replyShown_of_stale env s h hstale.1 hstale.2⟩
  · have haccept : (cqGuardAcceptTs s.shown.gGuard n.ts).1 = true := by
      rw [cqGuardAcceptTs]
      split
      · rfl
      · rw [if_neg (by omega)]
    right
    simp only [replyShown, h, haccept, if_true, adoptedShown]

/-- The state depends on the state key only. -/
theorem state_cqNowFromResponse_congr {P D : Bytes}
    (h : cqFieldsGet (replyFields P) (.lit "state") = cqFieldsGet (replyFields D) (.lit "state")) :
    (cqNowFromResponse P).state = (cqNowFromResponse D).state :=
  congrArg stateFrom h

theorem heldVolume_state (env : Env) (s : Globals) (n : CqNow) :
    (heldVolume env s n).state = n.state := by
  rw [heldVolume]
  split <;> rfl

theorem heldVolume_track (env : Env) (s : Globals) (n : CqNow) :
    (heldVolume env s n).track = n.track := by
  rw [heldVolume]
  split <;> rfl

/-- **A cut-off reply.** `D` is a healthy document whose last state line is `state TAB w`, `P` what has
arrived of it, and the reply is adopted over any snapshot. With the state line whole in `P`, the state
shown is the earlier one or `D`'s, and the watchdog fires only if `D` is stopped. With the first byte
of `D`'s track in `P`, a track on show is not blanked. In any case the reply is dropped, for a
positive `ts` below the mark, or shown as it reads, where a missing state reads as stopped. -/
theorem cutOff_law (env : Env) (s : Globals) (isCmd : Bool) {D P : Bytes}
    (hD : replyError D = none) (hP : P <+: D) {w A R : Bytes}
    (hline : LastLine D (.lit "state") w A R) :
    (HoldsLine P (.lit "state") w A →
      ((adoptReply env s P isCmd).shown.gSnap.state = s.shown.gSnap.state ∨
        (adoptReply env s P isCmd).shown.gSnap.state = (cqNowFromResponse D).state) ∧
      ((cqNowFromResponse D).state ≠ .stopped →
        trackEnded s.shown (cqNowFromResponse P) = false)) ∧
    (∀ (c : UInt8) (u B S : Bytes), c ≠ 0 → c ≠ CR → LastLine D (.lit "track") (c :: u) B S →
      B ++ ((CStr.lit "track").bytes ++ [TAB, c]) <+: P → cqNowHasTrack s.shown.gSnap = true →
      cqNowHasTrack (adoptReply env s P isCmd).shown.gSnap = true) ∧
    ((0 < (cqNowFromResponse P).ts ∧ (cqNowFromResponse P).ts < s.shown.gGuard.lastTs ∧
        (adoptReply env s P isCmd).shown = s.shown) ∨
      (adoptReply env s P isCmd).shown.gSnap = heldVolume env s (cqNowFromResponse P) ∧
        (cqFieldsGet (replyFields P) (.lit "state") = none →
          (adoptReply env s P isCmd).shown.gSnap.state = .stopped)) := by
  have hcases := replyShown_of_healthy env s (healthyReply_cut hP hD)
  rw [shown_adoptReply]
  refine ⟨?_, ?_, ?_⟩
  · -- the line of the state has arrived whole, so the prefix reads it as the document does
    intro hholds
    have hstate : (cqNowFromResponse P).state = (cqNowFromResponse D).state :=
      state_cqNowFromResponse_congr (hline.get_of_holds hP hholds)
    refine ⟨?_, ?_⟩
    · rcases hcases with ⟨-, -, hdrop⟩ | hadopt
      · rw [hdrop]
        exact Or.inl rfl
      · rw [hadopt, heldVolume_state, hstate]
        exact Or.inr rfl
    · intro hplaying
      rw [← hstate] at hplaying
      simp [trackEnded, hplaying]
  · intro c u B S hc hcr htrack hfirst hhas
    rcases hcases with ⟨-, -, hdrop⟩ | hadopt
    · rw [hdrop]
      exact hhas
    · -- one byte of the title is enough for a text that is not empty
      obtain ⟨x, hx, hne⟩ := htrack.get_of_first ⟨hc, hcr⟩ hP hfirst
      have htext : (cqNowFromResponse P).track = some x := hx
      rw [hadopt, cqNowHasTrack, heldVolume_track, htext]
      simpa using hne
  · rcases hcases with hdrop | hadopt
    · exact Or.inl hdrop
    · refine Or.inr ⟨hadopt, fun hnone => ?_⟩
      rw [hadopt, heldVolume_state]
      exact congrArg stateFrom hnone

/-- A document that plays. -/
def playingDoc : Bytes := ascii "state\tplaying\ntrack\tRosa\nduration_ms\t1000\n"

theorem playingDoc_state : LastLine playingDoc (.lit "state") (ascii "playing") []
    (ascii "\ntrack\tRosa\nduration_ms\t1000\n") where
  eq := by decide
  start := Or.inl rfl
  keyed := by decide
  line := by decide
  after := Or.inr ⟨ascii "track\tRosa\nduration_ms\t1000\n", by decide, by decide⟩

theorem playingDoc_track : LastLine playingDoc (.lit "track") (ascii "Rosa") (ascii "state\tplaying\n")
    (ascii "\nduration_ms\t1000\n") where
  eq := by decide
  start := Or.inr ⟨ascii "state\tplaying", rfl⟩
  keyed := by decide
  line := by decide
  after := Or.inr ⟨ascii "duration_ms\t1000\n", by decide, by decide⟩

/-- The client with a paused track on show. -/
def pausedShown : Globals :=
  (run step (launch (.lit "192.0.2.10") 70 false false)
    (polled 1000 (ascii "state\tpaused\ntrack\tLua\nts\t2000\n"))).get (by decide +kernel)

/-- The document is cut off in its track: the display goes over to it, with what there is of the title. -/
theorem cutOff_law_sample :
    ((adoptReply (worldAt 3000 .running) pausedShown (playingDoc.take 22) false).shown.gSnap.state = .paused ∨
        (adoptReply (worldAt 3000 .running) pausedShown (playingDoc.take 22) false).shown.gSnap.state =
          .playing) ∧
      trackEnded pausedShown.shown (cqNowFromResponse (playingDoc.take 22)) = false ∧
      cqNowHasTrack (adoptReply (worldAt 3000 .running) pausedShown (playingDoc.take 22) false).shown.gSnap =
        true := by
  have hpaused : pausedShown.shown.gSnap.state = .paused := by decide +kernel
  have hplaying : (cqNowFromResponse playingDoc).state = .playing := by decide +kernel
  obtain ⟨hstate, htrack, -⟩ := cutOff_law (worldAt 3000 .running) pausedShown false
    (by decide +kernel) (List.take_prefix 22 playingDoc) playingDoc_state
  obtain ⟨hshown, hended⟩ := hstate (Or.inl (by decide))
  rw [hpaused, hplaying] at hshown
  refine ⟨hshown, hended (by decide +kernel), ?_⟩
  exact htrack _ _ _ _ (by decide) (by decide) playingDoc_track (by decide) (by decide +kernel)

/-- **An empty reply stops the display.** A playing snapshot is on show, the document on its way plays
too, and the connection ends before its first byte. -/
theorem empty_reply_stops :
    [] <+: playingDoc ∧ replyError playingDoc = none ∧
      (cqNowFromResponse playingDoc).state = .playing ∧
      (run step (launch (.lit "192.0.2.10") 70 false false) firstPoll).map
        (fun s => (s.shown.gSnap.state,
          (adoptReply (worldAt 3000 .running) s [] false).shown.gSnap.state)) =
        some (.playing, .stopped) := by
  decide +kernel

end Casquinha.App

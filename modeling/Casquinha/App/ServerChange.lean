import Casquinha.App.Cargo
import Casquinha.App.Writes

/-!
# A change of server

`ApplyServerChange` is to leave the old server behind: what is in flight, what waits to be sent, what
was found out and what was decided (`CarriesNothing`). It cancels every transaction, and serial numbers
tell that none of them comes back. It does not reset four globals: the tap that waits in `gDeb`, the uri
in `gFallbackUri`, the answer in `gNativePlay` and the pending start. So a change carries nothing over if
and only if none of the four holds anything (`server_change_carries_nothing`).
-/

set_option autoImplicit false

namespace Casquinha.App

open Lib Wire

/-- A step that takes an error reply for the answer to a probe: it starts a fire. -/
def Replays (s : Globals) (e : Event) : Prop :=
  e.act = .pumpCmd ∧ (∃ data err, delivered s e = some data ∧ replyError data = some err) ∧
    (perform e.env s e.act).gFire ≠ s.gFire

/-- Nothing of `s`, the state before a change of server, is carried over to `t`, the state after it. In
whatever happens next no transaction of `s` is in flight, no flush sends a selector before a tap is
taken, and no uri is replayed before one is stored. -/
structure CarriesNothing (s t : Globals) : Prop where
  replies : ∀ events u, run step t events = some u →
    ∀ tx, some tx ∈ handles s → some tx ∉ handles u
  taps : ∀ events u env, Meets step (fun v e => takesTap v e = false) t events →
    run step t events = some u → (flushDebounce env u).probe.gCmd = u.probe.gCmd
  replays : ∀ events u e, Meets step (fun v e => storesUri v e = false) t events →
    run step t events = some u → ¬ Replays u e
  streamProbe : t.gStreamProbe = .unprobed
  nativePlay : t.probe.gNativePlay = .unprobed
  decision : t.gAutoPlayPending = false

/-- Nothing waits where the change does not look. -/
structure NothingWaits (s : Globals) : Prop where
  tap : s.gDeb.pending = none
  uri : s.probe.gFallbackUri.bytes = []
  nativePlay : s.probe.gNativePlay = .unprobed
  decision : s.gAutoPlayPending = false

/-! ## Serial numbers -/

/-- The transactions in flight have been started. -/
def Started (s : Globals) : Prop := ∀ tx, some tx ∈ handles s → tx.id < s.nextTx

theorem started_step {s t : Globals} {e : Event} (h : Started s) (ht : step s e = some t) :
    Started t := by
  cases ht
  intro tx htx
  have hcarries := carries_perform s e
  rcases hcarries.handles tx htx with hold | ⟨-, hlt⟩
  · exact Nat.lt_of_lt_of_le (h tx hold) hcarries.nextTx
  · exact hlt

/-- Every transaction in flight was started at `n` or later. -/
structure Since (n : Nat) (s : Globals) : Prop where
  nextTx : n ≤ s.nextTx
  handles : ∀ tx, some tx ∈ handles s → n ≤ tx.id

theorem since_step {n : Nat} {s t : Globals} {e : Event} (h : Since n s)
    (ht : step s e = some t) : Since n t := by
  cases ht
  have hcarries := carries_perform s e
  refine ⟨Nat.le_trans h.nextTx hcarries.nextTx, ?_⟩
  intro tx htx
  rcases hcarries.handles tx htx with hold | ⟨hge, -⟩
  · exact h.handles tx hold
  · exact Nat.le_trans h.nextTx hge

/-! ## What waits stays away -/

/-- Without a tap nothing waits in the debouncer. -/
theorem tap_step {s t : Globals} {e : Event} (h : s.gDeb.pending = none)
    (htap : takesTap s e = false) (ht : step s e = some t) : t.gDeb.pending = none := by
  cases ht
  exact (carries_perform s e).tap.resolve_left (by rw [htap]; simp) h

/-- Without a call that stores one no uri waits. -/
theorem uri_step {s t : Globals} {e : Event} (h : s.probe.gFallbackUri.bytes = [])
    (hstore : storesUri s e = false) (ht : step s e = some t) :
    t.probe.gFallbackUri.bytes = [] := by
  cases ht
  exact (carries_perform s e).uri.resolve_left (by rw [hstore]; simp) h

/-- An empty debouncer flushes nothing. -/
theorem flushDebounce_of_no_tap (env : Env) {s : Globals} (h : s.gDeb.pending = none) :
    flushDebounce env s = s := by
  have hhas : cqDebounceHas s.gDeb = false := by
    rw [cqDebounceHas, h]
    rfl
  rw [flushDebounce, if_neg (by rw [hhas]; simp)]

/-- An error reply of a command fires what its branch of `AdoptReply` fires. -/
theorem fire_pumpCmd_of_error {env : Env} {s : Globals} {tx : Tx} {data : Bytes} {err : CStr}
    (htx : s.probe.gCmd = some tx) (hpoll : env.poll tx.id = .done data)
    (herror : replyError data = some err) :
    (pumpCmd env s).gFire = (adoptError env { s with gOnline := true } true err).gFire := by
  simp only [pumpCmd, htx, hpoll, adoptReply, herror, fire_redraw]

/-- Without a stored uri no error is replayed. -/
theorem not_replays_of_no_uri {s : Globals} {e : Event} (h : s.probe.gFallbackUri.bytes = []) :
    ¬ Replays s e := by
  obtain ⟨env, act⟩ := e
  rintro ⟨rfl, ⟨data, err, hdata, herror⟩, hfire⟩
  apply hfire
  obtain ⟨tx, htx, hreply⟩ := Option.bind_eq_some_iff.1 hdata
  refine (fire_pumpCmd_of_error htx (TxPoll.eq_done_of_reply hreply) herror).trans ?_
  rw [adoptError]
  split
  · rfl
  · split
    · next htakes =>
      simp only [takesFallback, h, ne_eq, not_true_eq_false, decide_false, Bool.and_false,
        Bool.false_eq_true] at htakes
    · rfl

/-! ## One change -/

/-- The globals a change of server is made of. -/
theorem perform_change {s : Globals} {e : Event} (h : resetsGuard s e = true) :
    cargo (perform e.env s e.act) = { cargo s with handles := List.replicate 9 none } ∧
      (perform e.env s e.act).probe = { s.probe with gCmd := none } ∧
      (perform e.env s e.act).gDeb = s.gDeb ∧
      (perform e.env s e.act).gFire = none ∧
      (perform e.env s e.act).gStreamProbe = .unprobed ∧
      (perform e.env s e.act).gAutoPlayPending = s.gAutoPlayPending := by
  obtain ⟨host, port, suspended, hperform⟩ := perform_of_resets h
  rw [hperform]
  exact ⟨rfl, rfl, rfl, rfl, rfl, rfl⟩

/-- Everything can be allocated, nothing is heard. -/
def freeWorld (tick : BitVec 32) (report : TxPoll) : Env :=
  { tick := tick
    alloc := fun _ => true
    poll := fun _ => report
    decodes := fun _ => true }

/-- A tap that waits is sent. -/
theorem flush_sends {s : Globals} {sel : CStr} (hcmd : s.probe.gCmd = none)
    (htap : s.gDeb.pending = some sel) :
    (flushDebounce (freeWorld s.gCmdFire .running) s).probe.gCmd =
      some ⟨s.nextTx, s.gHost, s.gPort, sel⟩ := by
  have hdue : 0 ≤ (s.gCmdFire - s.gCmdFire).toInt := by
    rw [BitVec.sub_self]
    decide
  have hhas : cqDebounceHas s.gDeb = true := by
    rw [cqDebounceHas, htap]
    rfl
  simp only [flushDebounce]
  rw [if_pos ⟨hhas, hdue, hcmd⟩]
  simp only [cqDebounceTake, htap, startCommand, hcmd]
  rfl

/-- A fire that is no repeat, on a free handle, in a world where it can be allocated. -/
theorem fire_startFire_of_free {env : Env} {s : Globals} {sel : CStr}
    (hlate : cqActionGuardTicks ≤ (env.tick - s.gLastActionTick).toInt) (hfree : s.gFire = none)
    (halloc : env.alloc s.nextTx = true) : (startFire env s sel).gFire ≠ none := by
  rcases actionRepeat_cases env s sel with ⟨hrep, -⟩ | ⟨-, h⟩
  · simp only [isRepeat, Bool.and_eq_true, decide_eq_true_eq] at hrep
    omega
  · simp only [startFire, h, hfree, cqTxNew, halloc]
    simp

/-- A uri that waits is replayed: by the answer to the next command. -/
theorem play_replays {s : Globals} {tick : BitVec 32} (hcmd : s.probe.gCmd = none)
    (hfire : s.gFire = none) (huri : s.probe.gFallbackUri.bytes ≠ [])
    (htick : cqActionGuardTicks ≤ (tick - s.gLastActionTick).toInt) :
    Replays (perform (freeWorld tick .running) s (.script .play))
      ⟨freeWorld tick (.done (ascii "error\tnot_found\n")), .pumpCmd⟩ := by
  have herror : replyError (ascii "error\tnot_found\n") = some (.lit "not_found") := by
    decide +kernel
  have hrate : (.lit "not_found" : CStr) ≠ .lit "rate_limited" := by decide +kernel
  have hcmd' : (setIntent (freeWorld tick .running) s .play).probe.gCmd = none := hcmd
  have hplay : (perform (freeWorld tick .running) s (.script .play)).probe.gCmd =
      some ⟨s.nextTx, s.gHost, s.gPort, .lit "/spot/api/1/play"⟩ := by
    simp only [perform, doScriptCmd, scriptCommand, startCommand, hcmd']
    rfl
  -- the command touches neither the uri nor what the fire depends on
  have hkept : ∀ {α : Type} (f : Globals → α),
      (∀ t cmd next, f { t with
        probe := { t.probe with gCmd := cmd }
        nextTx := next } = f t) → (∀ t kind, f (setIntent (freeWorld tick .running) t kind) = f t) →
      f (perform (freeWorld tick .running) s (.script .play)) = f s := by
    intro α f hf hintent
    simp only [perform, doScriptCmd, scriptCommand, startCommand, hcmd']
    rw [hf, hintent]
  have huri' := hkept (fun t => t.probe.gFallbackUri) (fun _ _ _ => rfl) fun _ _ => rfl
  have hfire' := hkept Globals.gFire (fun _ _ _ => rfl) fun _ _ => rfl
  have hlast' := hkept Globals.gLastActionTick (fun _ _ _ => rfl) fun _ _ => rfl
  generalize perform (freeWorld tick .running) s (.script .play) = t at *
  refine ⟨rfl, ⟨_, _, ?_, herror⟩, ?_⟩
  · simp only [delivered, hplay, Option.bind_some]
    rfl
  · dsimp only at huri' ⊢
    rw [hfire', hfire]
    simp only [perform]
    rw [fire_pumpCmd_of_error hplay rfl herror, adoptError, if_neg hrate, if_pos, fallBack]
    · apply fire_startFire_of_free
      · rw [← hlast'] at htick
        exact htick
      · exact hfire'.trans hfire
      · rfl
    · simp only [takesFallback, huri', Bool.true_and, Bool.and_eq_true, decide_eq_true_eq]
      exact ⟨trivial, huri⟩

/-- What waits is carried over. -/
theorem CarriesNothing.waits {s : Globals} {e : Event} (hchange : resetsGuard s e = true)
    (h : CarriesNothing s (perform e.env s e.act)) : NothingWaits s := by
  obtain ⟨-, hprobe, hdeb, hfire, -, hdecision⟩ := perform_change hchange
  have hcmd : (perform e.env s e.act).probe.gCmd = none := by rw [hprobe]
  refine ⟨?_, ?_, ?_, hdecision.symm.trans h.decision⟩
  · by_contra htap
    -- a tap that waits would be flushed to the new server
    obtain ⟨sel, hsel⟩ := Option.ne_none_iff_exists'.1 htap
    have hsame := h.taps [] _ (freeWorld (perform e.env s e.act).gCmdFire .running) trivial rfl
    rw [flush_sends hcmd (by rw [hdeb]; exact hsel), hcmd] at hsame
    cases hsame
  · by_contra huri
    -- the guard against repeats has run out
    have hlate : cqActionGuardTicks ≤
        (40 + (perform e.env s e.act).gLastActionTick -
          (perform e.env s e.act).gLastActionTick).toInt := by
      rw [BitVec.add_sub_cancel]
      decide
    have hreplays := play_replays hcmd hfire (by rw [hprobe]; exact huri) hlate
    refine h.replays [⟨freeWorld (40 + (perform e.env s e.act).gLastActionTick) .running,
      .script .play⟩] _ _ ?_ rfl hreplays
    exact ⟨rfl, fun _ _ => trivial⟩
  · have hnative := h.nativePlay
    rw [hprobe] at hnative
    exact hnative

/-- **A change at which nothing waits** carries nothing over. -/
theorem NothingWaits.carriesNothing {s : Globals} {e : Event} (h : NothingWaits s)
    (hstarted : Started s) (hchange : resetsGuard s e = true) :
    CarriesNothing s (perform e.env s e.act) := by
  obtain ⟨hcargo, hprobe, hdeb, hfire, hstream, hdecision⟩ := perform_change hchange
  have hsince : Since s.nextTx (perform e.env s e.act) := by
    refine ⟨Nat.le_of_eq (congrArg Cargo.nextTx hcargo).symm, ?_⟩
    intro tx htx
    have hnone : some tx ∈ List.replicate 9 none := by
      rw [← show handles (perform e.env s e.act) = List.replicate 9 none from
        congrArg Cargo.handles hcargo]
      exact htx
    cases List.eq_of_mem_replicate hnone
  refine ⟨?_, ?_, ?_, hstream, ?_, hdecision.trans h.decision⟩
  · intro events u hrun tx hold hnew
    -- handles are numbered in the order of their start
    have hlate := (run_invariant (Since s.nextTx) (fun _ _ _ => since_step) hsince hrun).handles tx hnew
    exact absurd (hstarted tx hold) (Nat.not_lt.2 hlate)
  · intro events u env hmeets hrun
    have hnone : u.gDeb.pending = none := by
      refine run_invariant_of_meets (fun v => v.gDeb.pending = none) (fun _ _ _ => tap_step) ?_ hmeets
        hrun
      rw [hdeb]
      exact h.tap
    rw [flushDebounce_of_no_tap env hnone]
  · intro events u e' hmeets hrun
    apply not_replays_of_no_uri
    refine run_invariant_of_meets (fun v => v.probe.gFallbackUri.bytes = []) (fun _ _ _ => uri_step) ?_
      hmeets hrun
    rw [hprobe]
    exact h.uri
  · rw [hprobe]
    exact h.nativePlay

/-! ## Runs -/

/-- **Nothing carried over.** In a run every change of server leaves the old one behind if and only if at
every change no tap waits, no uri is stored, the play/from probe is unprobed and no start is pending. -/
theorem server_change_carries_nothing (host : CStr) (port : Nat) (autoStart qtOk : Bool)
    (events : List Event) :
    Meets step (fun s e => resetsGuard s e = true → NothingWaits s)
        (launch host port autoStart qtOk) events ↔
      Meets step (fun s e => resetsGuard s e = true → CarriesNothing s (perform e.env s e.act))
        (launch host port autoStart qtOk) events := by
  apply meets_congr_of_inv Started
  · intro s e t h ht
    exact started_step h ht
  · intro s e hstarted
    constructor
    · intro h hchange
      exact (h hchange).carriesNothing hstarted hchange
    · intro h hchange
      exact (h hchange).waits hchange
  · intro tx htx
    simp [handles, launch] at htx

/-- A tap on Prev, a change of server before the tap has settled, and the flush. -/
def tapThenServer : List Event :=
  [⟨worldAt 1000 .running, .clickPrev⟩,
    ⟨worldAt 1005 .running, .setServer (.lit "198.51.100.7") 70⟩,
    ⟨worldAt 1100 .running, .flushDebounce⟩]

/-- **The old tap goes to the new server.** -/
theorem tap_follows_server :
    (run step (launch (.lit "192.0.2.10") 70 false false) tapThenServer).map
        (fun s => s.probe.gCmd.map fun tx => (tx.host, tx.selector)) =
      some (some (.lit "198.51.100.7", .lit "/spot/api/1/prev")) := by
  decide +kernel

end Casquinha.App

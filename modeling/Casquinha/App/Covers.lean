import Casquinha.App.Writes
import Mathlib.Data.List.DropRight

/-!
# The covers requested

The cover cache remembers every album that was fetched, with its image or without, so that no album is
requested twice. It has eight slots and drops the oldest first: it remembers the last eight albums
fetched (`KeepsCovers.cached`). A run requests no cover twice if and only if every album that is asked
for again is among the last eight (`covers_requested_once`).
-/

set_option autoImplicit false

namespace Casquinha.App

open Lib Wire

/-! ## The cache -/

/-- The key of an album. An id of at most 63 bytes is its own key. -/
def coverKey (albumId : CStr) : CStr := albumId.fit cqCacheKeymax

/-- The selector that requests the cover of a key. -/
def coverSel (key : CStr) : CStr := (CStr.lit "/spot/api/1/cover/" ++ key ++ .lit "/64").fit 96

theorem length_coverKey (albumId : CStr) : (coverKey albumId).length < cqCacheKeymax := by
  have h : (coverKey albumId).length = (albumId.bytes.take (cqCacheKeymax - 1)).length := rfl
  rw [h, List.length_take]
  exact lt_of_le_of_lt (Nat.min_le_left _ _) (by decide)

theorem coverKey_eq_self {key : CStr} (h : key.length < cqCacheKeymax) : coverKey key = key :=
  CStr.fit_eq_self h

/-- Different keys are requested with different selectors: the buffer holds them whole. -/
theorem coverSel_inj {k k' : CStr} (hk : k.length < cqCacheKeymax) (hk' : k'.length < cqCacheKeymax)
    (h : coverSel k = coverSel k') : k = k' := by
  have hwhole : ∀ key : CStr, key.length < cqCacheKeymax →
      coverSel key = CStr.lit "/spot/api/1/cover/" ++ key ++ .lit "/64" := by
    intro key hkey
    apply CStr.fit_eq_self
    have hkey' : key.bytes.length < 64 := hkey
    have h₁ : (CStr.lit "/spot/api/1/cover/").bytes.length = 18 := by decide +kernel
    have h₂ : (CStr.lit "/64").bytes.length = 3 := by decide +kernel
    show (CStr.lit "/spot/api/1/cover/" ++ key ++ .lit "/64").bytes.length < 96
    simp only [CStr.bytes_append, List.length_append, h₁, h₂]
    omega
  rw [hwhole k hk, hwhole k' hk', ← CStr.bytes_inj] at h
  simp only [CStr.bytes_append, List.append_assoc] at h
  exact CStr.ext' (List.append_cancel_right (List.append_cancel_left h))

section Cache

variable {α : Type}

/-- The keys of a cache, the oldest first. -/
def cacheKeys (c : CqCache α) : List CStr := c.slots.map Prod.fst

theorem cqCacheHas_iff (c : CqCache α) (albumId : CStr) :
    cqCacheHas c albumId = true ↔ coverKey albumId ∈ cacheKeys c := by
  rw [cqCacheHas, keyFind, List.findIdx?_isSome, List.any_eq_true, cacheKeys, List.mem_map]
  constructor
  · rintro ⟨slot, hmem, hkey⟩
    exact ⟨slot, hmem, of_decide_eq_true hkey⟩
  · rintro ⟨slot, hmem, hkey⟩
    exact ⟨slot, hmem, decide_eq_true hkey⟩

/-- A list of at most `n + 1` last elements makes room for one more by dropping its first. -/
theorem dropOldest_rtake (l : List CStr) (n : Nat) :
    (if (l.rtake (n + 1)).length = n + 1 then (l.rtake (n + 1)).drop 1 else l.rtake (n + 1)) =
      l.rtake n := by
  simp only [List.rtake, List.length_drop, List.drop_drop]
  split
  · congr 1
    omega
  · congr 1
    omega

/-- **A new key** takes the place of the oldest of the last `cqCacheSlots`. -/
theorem cacheKeys_put {c : CqCache α} {fetched : List CStr} {key : CStr} (val : α)
    (hcached : cacheKeys c = fetched.rtake cqCacheSlots) (hkey : key.length < cqCacheKeymax)
    (hnew : key ∉ fetched) :
    cacheKeys (cqCachePut c key val) = (fetched ++ [key]).rtake cqCacheSlots := by
  have habsent : keyFind c key = none := by
    by_contra hfound
    have hhas : cqCacheHas c key = true := Option.isSome_iff_ne_none.2 hfound
    rw [cqCacheHas_iff, coverKey_eq_self hkey, hcached] at hhas
    exact hnew (List.mem_of_mem_drop hhas)
  have hlength : c.slots.length = (fetched.rtake cqCacheSlots).length := by
    rw [← hcached, cacheKeys, List.length_map]
  rw [cqCachePut, habsent]
  simp only [cacheKeys, List.map_append, List.map_cons, List.map_nil]
  rw [show cqCacheSlots = 7 + 1 from rfl, List.rtake_concat_succ, CStr.fit_eq_self hkey,
    ← dropOldest_rtake fetched 7, ← show cqCacheSlots = 7 + 1 from rfl, ← hlength, ← hcached]
  congr 1
  split
  · exact List.map_drop
  · rfl

end Cache

/-! ## History -/

/-- What the app has asked the cache for, and what it has requested, since the last change of server:
the keys, each once and in the order of the first ask, and the selectors. -/
structure CoverLog where
  asked : List CStr
  requested : List CStr

/-- The album on show is asked for when everything but the cache lets it be fetched. -/
def asksFor (s : Globals) (e : Event) : Option CStr :=
  match e.act with
  | .startCover =>
      if s.gQTOk ∧ s.shown.gHaveSnap ∧ s.gCover = none ∧ s.gSuspended = false ∧
          txInFlight s < cqMaxInflight ∧ e.env.alloc s.nextTx = true then
        s.shown.gSnap.albumId.map coverKey
      else none
  | _ => none

/-- The `/cover` transaction that a step starts. -/
def startedCover (s : Globals) (e : Event) : Option Tx :=
  if (perform e.env s e.act).gCover = s.gCover then none else (perform e.env s e.act).gCover

namespace CoverLog

def blank : CoverLog := ⟨[], []⟩

/-- The log after a step from `s`. -/
def note (l : CoverLog) (s : Globals) (e : Event) : CoverLog :=
  if resetsGuard s e then blank
  else
    { asked :=
        match asksFor s e with
        | some key => if key ∈ l.asked then l.asked else l.asked ++ [key]
        | none => l.asked
      requested := l.requested ++ ((startedCover s e).map Tx.selector).toList }

end CoverLog

/-- An album that is asked for again is among the last `cqCacheSlots` albums. -/
def Recalled (x : Traced Globals CoverLog) (e : Event) : Prop :=
  ∀ key, asksFor x.state e = some key → key ∈ x.log.asked → key ∈ x.log.asked.rtake cqCacheSlots

/-! ## One step -/

/-- The key whose cover is in flight. -/
def coverInFlight (s : Globals) : List CStr := if s.gCover.isSome then [s.gCoverReq] else []

/-- Every key was requested when it was first asked for, and the cache holds the last of those whose
fetch is over. -/
structure KeepsCovers (x : Traced Globals CoverLog) : Prop where
  nodup : x.log.asked.Nodup
  keys : ∀ key ∈ x.log.asked, key.length < cqCacheKeymax
  requested : x.log.requested = x.log.asked.map coverSel
  cached : ∃ fetched, x.log.asked = fetched ++ coverInFlight x.state ∧
    cacheKeys x.state.gCovers = fetched.rtake cqCacheSlots

/-- No selector has been requested twice. -/
theorem KeepsCovers.once {x : Traced Globals CoverLog} (h : KeepsCovers x) (albumId : CStr) :
    x.log.requested.count (coverSel (coverKey albumId)) ≤ 1 := by
  apply List.nodup_iff_count_le_one.1
  rw [h.requested]
  apply List.Nodup.map_on _ h.nodup
  intro k hk k' hk' heq
  exact coverSel_inj (h.keys k hk) (h.keys k' hk') heq

/-- With no cover in flight the cache holds the last of all keys asked for. -/
theorem KeepsCovers.cached_of_idle {x : Traced Globals CoverLog} (h : KeepsCovers x)
    (hidle : x.state.gCover = none) :
    cacheKeys x.state.gCovers = x.log.asked.rtake cqCacheSlots := by
  obtain ⟨fetched, hasked, hcached⟩ := h.cached
  rw [coverInFlight, hidle] at hasked
  rw [hcached, hasked]
  simp

/-- A step that leaves the covers alone. -/
theorem KeepsCovers.quiet {x : Traced Globals CoverLog} {t : Globals} (h : KeepsCovers x)
    (hcover : t.gCover = x.state.gCover) (hreq : t.gCover.isSome → t.gCoverReq = x.state.gCoverReq)
    (hcache : t.gCovers = x.state.gCovers) : KeepsCovers ⟨t, x.log⟩ := by
  obtain ⟨fetched, hasked, hcached⟩ := h.cached
  refine ⟨h.nodup, h.keys, h.requested, fetched, ?_, ?_⟩
  · rw [hasked, coverInFlight, coverInFlight, ← hcover]
    dsimp only
    split
    · next hsome => rw [hreq hsome]
    · rfl
  · rw [← hcached]
    exact congrArg cacheKeys hcache

/-! ### A fetch ends -/

/-- What the cover limb does with the report of a fetch: nothing, or a mark in the cache. -/
theorem pumpCover_cases (env : Env) (s : Globals) :
    pumpCover env s = s ∨
      s.gCover.isSome ∧ (pumpCover env s).gCover = none ∧
        ∃ gw, (pumpCover env s).gCovers = cqCachePut s.gCovers s.gCoverReq gw := by
  rw [pumpCover]
  cases s.gCover with
  | none => exact Or.inl rfl
  | some tx =>
      dsimp only
      cases env.poll tx.id with
      | running => exact Or.inl rfl
      | failed message => exact Or.inr ⟨rfl, rfl, none, rfl⟩
      | done data =>
          right
          dsimp only
          split
          · -- a picture that decodes is stored, then drawn
            have h := asks_redraw env { s with
              gCovers := cqCachePut s.gCovers s.gCoverReq (some data)
              gCover := none }
            exact ⟨rfl, h.frame Globals.gCover rfl, some data, h.frame Globals.gCovers rfl⟩
          · exact ⟨rfl, rfl, none, rfl⟩

/-- **The end of a fetch** leaves its key in the cache. -/
theorem KeepsCovers.pumpCover {x : Traced Globals CoverLog} (env : Env) (h : KeepsCovers x) :
    KeepsCovers ⟨App.pumpCover env x.state, x.log⟩ := by
  rcases pumpCover_cases env x.state with hsame | ⟨hflight, hidle, gw, hput⟩
  · exact h.quiet (congrArg Globals.gCover hsame) (fun _ => congrArg Globals.gCoverReq hsame)
      (congrArg Globals.gCovers hsame)
  · obtain ⟨fetched, hasked, hcached⟩ := h.cached
    rw [coverInFlight, if_pos hflight] at hasked
    refine ⟨h.nodup, h.keys, h.requested, fetched ++ [x.state.gCoverReq], ?_, ?_⟩
    · rw [coverInFlight]
      dsimp only
      rw [hidle]
      exact hasked.trans (List.append_nil _).symm
    · -- the key in flight is asked for once, so it is new to the cache
      have hnew : x.state.gCoverReq ∉ fetched := by
        have hnodup := h.nodup
        rw [hasked, List.nodup_append] at hnodup
        intro hmem
        exact hnodup.2.2 _ hmem _ List.mem_cons_self rfl
      have hkey : x.state.gCoverReq.length < cqCacheKeymax := by
        apply h.keys
        rw [hasked]
        exact List.mem_append_right _ List.mem_cons_self
      dsimp only
      rw [hput]
      exact cacheKeys_put gw hcached hkey hnew

/-! ### A fetch starts -/

/-- Nothing is started for an album that is not asked for, or that the cache remembers. -/
theorem startCover_quiet {env : Env} {s : Globals}
    (h : ∀ key, asksFor s ⟨env, .startCover⟩ = some key → key ∈ cacheKeys s.gCovers) :
    (startCover env s).gCover = s.gCover ∧ (startCover env s).gCovers = s.gCovers ∧
      ((startCover env s).gCover.isSome → (startCover env s).gCoverReq = s.gCoverReq) := by
  rw [startCover]
  cases halbum : s.shown.gSnap.albumId with
  | none => exact ⟨rfl, rfl, fun _ => rfl⟩
  | some albumId =>
      dsimp only
      split
      · next hgate =>
        obtain ⟨hqt, hsnap, hidle, hfore, hbudget, hmiss⟩ := hgate
        cases halloc : env.alloc s.nextTx with
        | false =>
            -- the request is noted, but there is no transaction
            have hnone : ∀ sel, cqTxNew env s sel = none := by
              intro sel
              rw [cqTxNew, halloc]
              rfl
            refine ⟨(hnone _).trans hidle.symm, rfl, ?_⟩
            intro hsome
            dsimp only at hsome
            rw [hnone] at hsome
            cases hsome
        | true =>
            have hasks : asksFor s ⟨env, .startCover⟩ = some (coverKey albumId) := by
              simp only [asksFor]
              rw [if_pos ⟨hqt, hsnap, hidle, hfore, hbudget, halloc⟩, halbum, Option.map_some]
            have hhas := (cqCacheHas_iff s.gCovers albumId).2 (h _ hasks)
            rw [hmiss] at hhas
            cases hhas
      · exact ⟨rfl, rfl, fun _ => rfl⟩

/-- An album that is asked for and that the cache does not remember is requested. -/
theorem startCover_starts {env : Env} {s : Globals} {key : CStr}
    (hasks : asksFor s ⟨env, .startCover⟩ = some key) (hmiss : key ∉ cacheKeys s.gCovers) :
    s.gCover = none ∧ (startCover env s).gCovers = s.gCovers ∧
      (startCover env s).gCoverReq = key ∧
      ∃ tx, (startCover env s).gCover = some tx ∧ tx.selector = coverSel key := by
  simp only [asksFor] at hasks
  split at hasks
  · next hgate =>
    obtain ⟨hqt, hsnap, hidle, hfore, hbudget, halloc⟩ := hgate
    obtain ⟨albumId, halbum, rfl⟩ := Option.map_eq_some_iff.1 hasks
    have hhas : cqCacheHas s.gCovers albumId = false := by
      rw [Bool.eq_false_iff]
      intro htrue
      exact hmiss ((cqCacheHas_iff s.gCovers albumId).1 htrue)
    rw [startCover, halbum]
    dsimp only
    rw [if_pos ⟨hqt, hsnap, hidle, hfore, hbudget, hhas⟩]
    refine ⟨hidle, rfl, rfl, ⟨s.nextTx, s.gHost, s.gPort, coverSel (coverKey albumId)⟩, ?_, rfl⟩
    simp only [cqTxNew, halloc, if_true]
    rfl
  · cases hasks

theorem asksFor_idle {env : Env} {s : Globals} {key : CStr}
    (hasks : asksFor s ⟨env, .startCover⟩ = some key) :
    s.gCover = none ∧ key.length < cqCacheKeymax := by
  simp only [asksFor] at hasks
  split at hasks
  · next hgate =>
    obtain ⟨albumId, -, rfl⟩ := Option.map_eq_some_iff.1 hasks
    exact ⟨hgate.2.2.1, length_coverKey albumId⟩
  · cases hasks

/-- No transaction appears: nothing is requested. -/
theorem startedCover_eq_none {s : Globals} {e : Event}
    (h : (perform e.env s e.act).gCover = s.gCover ∨ (perform e.env s e.act).gCover = none) :
    startedCover s e = none := by
  rw [startedCover]
  split
  · rfl
  · next hne => exact h.resolve_left hne

theorem startedCover_eq_some {s : Globals} {e : Event} {tx : Tx} (hidle : s.gCover = none)
    (h : (perform e.env s e.act).gCover = some tx) : startedCover s e = some tx := by
  rw [startedCover, hidle, h, if_neg (by simp)]

/-- **The start of a fetch**, when an album that comes back is one the cache remembers. -/
theorem KeepsCovers.startCover {x : Traced Globals CoverLog} {env : Env} (h : KeepsCovers x)
    (hok : Recalled x ⟨env, .startCover⟩) :
    KeepsCovers ⟨App.startCover env x.state, x.log.note x.state ⟨env, .startCover⟩⟩ := by
  by_cases hquiet : ∀ key, asksFor x.state ⟨env, .startCover⟩ = some key → key ∈ x.log.asked
  · -- nothing new is asked for, so the cache remembers it
    have hremembers : ∀ key, asksFor x.state ⟨env, .startCover⟩ = some key →
        key ∈ cacheKeys x.state.gCovers := by
      intro key hasks
      rw [h.cached_of_idle (asksFor_idle hasks).1]
      exact hok key hasks (hquiet key hasks)
    obtain ⟨hcover, hcache, hreq⟩ := startCover_quiet hremembers
    have hnote : x.log.note x.state ⟨env, .startCover⟩ = x.log := by
      have hstarted : startedCover x.state ⟨env, .startCover⟩ = none :=
        startedCover_eq_none (Or.inl hcover)
      rw [CoverLog.note, if_neg (by simp [resetsGuard]), hstarted]
      simp only [Option.map_none, Option.toList_none, List.append_nil]
      cases hasks : asksFor x.state ⟨env, .startCover⟩ with
      | none => rfl
      | some key =>
          dsimp only
          rw [if_pos (hquiet key hasks)]
    rw [hnote]
    exact h.quiet hcover hreq hcache
  · -- a new album: it is not in the cache, and it is requested
    obtain ⟨key, hkey⟩ := not_forall.1 hquiet
    obtain ⟨hasks, hnew⟩ := Classical.not_imp.1 hkey
    obtain ⟨hidle, hlength⟩ := asksFor_idle hasks
    have hcached := h.cached_of_idle hidle
    have hmiss : key ∉ cacheKeys x.state.gCovers := by
      rw [hcached]
      intro hmem
      exact hnew (List.mem_of_mem_drop hmem)
    obtain ⟨-, hcache, hreq, tx, htx, hsel⟩ := startCover_starts hasks hmiss
    have hnote : x.log.note x.state ⟨env, .startCover⟩ =
        ⟨x.log.asked ++ [key], x.log.requested ++ [coverSel key]⟩ := by
      have hstarted : startedCover x.state ⟨env, .startCover⟩ = some tx :=
        startedCover_eq_some hidle htx
      rw [CoverLog.note, if_neg (by simp [resetsGuard]), hstarted, hasks]
      simp only [if_neg hnew, Option.map_some, Option.toList_some, hsel]
    rw [hnote]
    refine ⟨?_, ?_, ?_, x.log.asked, ?_, ?_⟩
    · exact List.nodup_append.2 ⟨h.nodup, by simp, fun a ha b hb => by
        rw [List.mem_singleton.1 hb]
        exact ne_of_mem_of_not_mem ha hnew⟩
    · intro k hk
      rcases List.mem_append.1 hk with hk | hk
      · exact h.keys k hk
      · rw [List.mem_singleton.1 hk]
        exact hlength
    · simp only [h.requested, List.map_append, List.map_cons, List.map_nil]
    · simp only [coverInFlight, htx, Option.isSome_some, if_true, hreq]
    · exact (congrArg cacheKeys hcache).trans hcached

/-- An album that comes back too late is requested again. -/
theorem KeepsCovers.recalled {x : Traced Globals CoverLog} {e : Event} (h : KeepsCovers x)
    (honce : ∀ albumId,
      (x.log.note x.state e).requested.count (coverSel (coverKey albumId)) ≤ 1) :
    Recalled x e := by
  obtain ⟨env, act⟩ := e
  intro key hasks hagain
  cases act with
  | startCover =>
      obtain ⟨hidle, hlength⟩ := asksFor_idle hasks
      rw [← h.cached_of_idle hidle]
      -- a miss would be a second request for the key
      by_contra hmiss
      obtain ⟨-, -, -, tx, htx, hsel⟩ := startCover_starts hasks hmiss
      have hstarted : startedCover x.state ⟨env, .startCover⟩ = some tx :=
        startedCover_eq_some hidle htx
      have hcount := honce key
      rw [CoverLog.note, if_neg (by simp [resetsGuard]), hstarted, coverKey_eq_self hlength] at hcount
      simp only [Option.map_some, Option.toList_some, hsel, List.count_append,
        List.count_singleton_self] at hcount
      have hbefore : 0 < x.log.requested.count (coverSel key) := by
        rw [List.count_pos_iff, h.requested]
        exact List.mem_map_of_mem hagain
      omega
  | _ => cases hasks

/-- Steps that ask for nothing and start nothing note nothing. -/
theorem CoverLog.note_of_quiet {l : CoverLog} {s : Globals} {e : Event}
    (hserver : resetsGuard s e = false) (hasks : asksFor s e = none)
    (hstarted : startedCover s e = none) : l.note s e = l := by
  rw [CoverLog.note, if_neg (by rw [hserver]; simp), hasks, hstarted]
  simp

/-- A step that is neither of the covers nor of the server. -/
theorem KeepsCovers.frame {x : Traced Globals CoverLog} {env : Env} {act : Act} (h : KeepsCovers x)
    (hserver : resetsGuard x.state ⟨env, act⟩ = false) (hasks : asksFor x.state ⟨env, act⟩ = none)
    (hf : ∀ s t : Globals, (written act s t).gCover = s.gCover ∧
      (written act s t).gCoverReq = s.gCoverReq ∧ (written act s t).gCovers = s.gCovers) :
    KeepsCovers ⟨perform env x.state act, x.log.note x.state ⟨env, act⟩⟩ := by
  have hcover : (perform env x.state act).gCover = x.state.gCover :=
    perform_frame hserver _ (hf _ _).1
  rw [CoverLog.note_of_quiet hserver hasks (startedCover_eq_none (Or.inl hcover))]
  apply h.quiet hcover
  · intro _
    exact perform_frame hserver _ (hf _ _).2.1
  · exact perform_frame hserver _ (hf _ _).2.2

/-- **A step** in which every album that comes back is remembered. -/
theorem KeepsCovers.step {x : Traced Globals CoverLog} {e : Event} (h : KeepsCovers x)
    (hok : Recalled x e) :
    KeepsCovers ⟨perform e.env x.state e.act, x.log.note x.state e⟩ := by
  cases hserver : resetsGuard x.state e with
  | true =>
      -- a change of server empties the cache, and the log with it
      obtain ⟨host, port, suspended, hperform⟩ := perform_of_resets hserver
      rw [hperform, CoverLog.note, if_pos hserver]
      refine ⟨List.nodup_nil, ?_, rfl, [], rfl, rfl⟩
      intro key hkey
      cases hkey
  | false =>
      obtain ⟨env, act⟩ := e
      cases act with
      | startCover => exact h.startCover hok
      | pumpCover =>
          -- the end of a fetch starts none
          have hstarted : startedCover x.state ⟨env, .pumpCover⟩ = none := by
            apply startedCover_eq_none
            rcases pumpCover_cases env x.state with hsame | ⟨-, hidle, -⟩
            · exact Or.inl (congrArg Globals.gCover hsame)
            · exact Or.inr hidle
          rw [CoverLog.note_of_quiet hserver rfl hstarted]
          exact h.pumpCover env
      | _ => exact h.frame hserver rfl fun _ _ => ⟨rfl, rfl, rfl⟩

/-! ## Runs -/

/-- **Covers requested once.** In every state a run passes through, every cover has been requested at
most once from the server it is on: if and only if every album that is asked for again during the run
is then among the last eight that were asked for. -/
theorem covers_requested_once (host : CStr) (port : Nat) (autoStart qtOk : Bool)
    (events : List Event) :
    Meets (traced step CoverLog.note) Recalled ⟨launch host port autoStart qtOk, .blank⟩ events ↔
      ∀ before x, before <+: events →
        run (traced step CoverLog.note) ⟨launch host port autoStart qtOk, .blank⟩ before =
          some x →
        ∀ albumId, x.log.requested.count (coverSel (coverKey albumId)) ≤ 1 := by
  refine meets_iff_of_law KeepsCovers ?_ ?_ ?_ (fun _ _ => rfl) ?_
  · intro x h
    exact h.once
  · intro x e y h hok hy
    cases hy
    exact h.step hok
  · intro x e y h hy hlaw
    cases hy
    exact h.recalled hlaw
  · refine ⟨List.nodup_nil, ?_, rfl, [], rfl, rfl⟩
    intro key hkey
    cases hkey

/-- A poll shows a track of the album, and its cover is fetched. -/
def albumShown (tick : BitVec 32) (albumId : String) : List Event :=
  [⟨worldAt tick .running, .pollNow⟩,
    ⟨worldAt tick (.done (ascii ("album_id\t" ++ albumId ++ "\n"))), .pollNow⟩,
    ⟨worldAt tick .running, .startCover⟩,
    ⟨worldAt tick (.done (ascii "error\tnot_found\n")), .pumpCover⟩]

/-- Nine albums, and then the first of them again. -/
def nineAlbums : List Event :=
  albumShown 2000 "A" ++ albumShown 4000 "B" ++ albumShown 6000 "C" ++ albumShown 8000 "D" ++
    albumShown 10000 "E" ++ albumShown 12000 "F" ++ albumShown 14000 "G" ++ albumShown 16000 "H" ++
    albumShown 18000 "I" ++ albumShown 20000 "A"

/-- **The ninth album** makes the cache forget the first, whose cover is requested again. -/
theorem ninth_album_forgets :
    (run (traced step CoverLog.note) ⟨launch (.lit "192.0.2.10") 70 false true, .blank⟩
      nineAlbums).map (fun x => x.log.requested.count (coverSel (coverKey (.lit "A")))) =
      some 2 := by
  decide +kernel

end Casquinha.App

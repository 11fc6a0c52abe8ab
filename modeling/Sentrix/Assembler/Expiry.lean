import Mathlib.Tactic.NormNum
import Sentrix.Assembler.RecentlyUsed

/-!
# Entries that do not expire

A `BoundedTable` of `assembler/flow_session_tables.py` is given a time to live,
`ttl_seconds`, and has a method that removes what was not seen for that long,
`_evict_expired`. Nothing calls the method. An entry leaves the table only when room is
needed for another one, so that a call for its key finds it after any time.

What such a call finds is a function of the calls before it (`UseInv`): the table holds
the keys called last, each with the time of its last call. A run answers every call as
the time to live demands if and only if no key comes back too late while the table still
holds it, which it does unless as many other keys as it has room for were called in
between (`ReturnsIdle`).
-/

namespace Sentrix

/-- The arguments of a call of `get_or_create`. -/
structure Request (κ ν : Type*) where
  key : κ
  defaultFactory : ν
  currentTime : ℚ

namespace BoundedTable

variable {κ ν : Type*} [DecidableEq κ]

/-- `_evict_expired`, for a table with the given `ttl_seconds`. -/
def evictExpired (ttl : ℚ) (t : BoundedTable κ ν) (currentTime : ℚ) : BoundedTable κ ν :=
  let kept := t.table.retain fun _ e => !decide (currentTime - e.lastSeen > ttl)
  -- one more for each key that is deleted
  { t with table := kept, evictedCount := t.evictedCount + (t.table.size - kept.size) }

/-- The table as a machine that is fed calls of `get_or_create`. -/
def requests (maxSize : ℤ) : Machine (BoundedTable κ ν) (Request κ ν) (TableEntry ν) where
  init := new maxSize
  step t c := t.getOrCreate c.key c.defaultFactory c.currentTime

/-- An entry that was not seen for longer than `ttl` is not answered any more: the call
creates a new one. -/
def Expires (ttl : ℚ) (t : BoundedTable κ ν) (c : Request κ ν) : Prop :=
  ∀ e, t.table.get? c.key = some e → ttl < c.currentTime - e.lastSeen →
    (t.getOrCreate c.key c.defaultFactory c.currentTime).2 =
      ⟨t.created, c.currentTime, c.currentTime, c.defaultFactory⟩

/-- A call for `key` at the given time comes more than `ttl` after the last one for it,
and fewer than `n` other keys were called in between. -/
def ReturnsIdle (n : ℕ) (ttl : ℚ) (calls : List (κ × ℚ)) (key : κ) (time : ℚ) : Prop :=
  ∃ g τ g', calls = g ++ (key, τ) :: g' ∧ key ∉ g'.map Prod.fst ∧
    (g'.map Prod.fst).dedup.length < n ∧ ttl < time - τ

/-- The number of keys a table has room for; it always keeps the last one. -/
def room (maxSize : ℤ) : ℕ := (max 1 maxSize).toNat

/-- The time of the last call for a key. -/
def lastCall (calls : List (κ × ℚ)) (key : κ) : Option ℚ :=
  (calls.filter fun c => decide (c.1 = key)).getLast?.map Prod.snd

theorem lastCall_concat (calls : List (κ × ℚ)) (c : κ × ℚ) (key : κ) :
    lastCall (calls ++ [c]) key = if c.1 = key then some c.2 else lastCall calls key := by
  unfold lastCall
  rw [List.filter_append]
  by_cases hkey : c.1 = key
  · have hkeep : [c].filter (fun c => decide (c.1 = key)) = [c] := by simp [hkey]
    rw [hkeep, List.getLast?_concat, if_pos hkey]
    rfl
  · have hdrop : [c].filter (fun c => decide (c.1 = key)) = [] := by simp [hkey]
    rw [hdrop, List.append_nil, if_neg hkey]

theorem lastCall_of_split {g g' : List (κ × ℚ)} {key : κ} (τ : ℚ) (h : key ∉ g'.map Prod.fst) :
    lastCall (g ++ (key, τ) :: g') key = some τ := by
  induction g' using List.reverseRecOn with
  | nil => rw [lastCall_concat, if_pos rfl]
  | append_singleton g' c ih =>
    rw [List.map_append, List.mem_append, not_or] at h
    have hkey : ¬ c.1 = key := fun heq => h.2 (heq ▸ List.mem_singleton_self _)
    rw [← List.cons_append, ← List.append_assoc, lastCall_concat, if_neg hkey]
    exact ih h.1

/-- A key that was called was called for the last time. -/
theorem exists_last_call {calls : List (κ × ℚ)} {key : κ} (h : key ∈ calls.map Prod.fst) :
    ∃ g τ g', calls = g ++ (key, τ) :: g' ∧ key ∉ g'.map Prod.fst := by
  induction calls using List.reverseRecOn with
  | nil => exact absurd h List.not_mem_nil
  | append_singleton calls c ih =>
    -- the newest call is the last one of the key, or the one found before is
    by_cases hkey : c.1 = key
    · refine ⟨calls, c.2, [], ?_, List.not_mem_nil⟩
      rw [← hkey]
    · rw [List.map_append, List.mem_append] at h
      have hmem := h.resolve_right fun hc => hkey (List.mem_singleton.mp hc).symm
      obtain ⟨g, τ, g', rfl, hlast⟩ := ih hmem
      refine ⟨g, τ, g' ++ [c], ?_, ?_⟩
      · rw [List.append_assoc, List.cons_append]
      · rw [List.map_append, List.mem_append, not_or]
        exact ⟨hlast, fun hc => hkey (List.mem_singleton.mp hc).symm⟩

/-! ### One call -/

theorem getOrCreate_of_not_mem {t : BoundedTable κ ν} {key : κ} (h : t.table.get? key = none)
    (defaultFactory : ν) (currentTime : ℚ) :
    (t.getOrCreate key defaultFactory currentTime).2 =
      ⟨t.created, currentTime, currentTime, defaultFactory⟩ := by
  unfold getOrCreate
  rw [h]

theorem maxSize_getOrCreate (t : BoundedTable κ ν) (key : κ) (defaultFactory : ν)
    (currentTime : ℚ) : (t.getOrCreate key defaultFactory currentTime).1.maxSize = t.maxSize := by
  unfold getOrCreate
  split
  · rfl
  · show (if _ then t.evictLru else t).maxSize = t.maxSize
    split
    · unfold evictLru
      split <;> rfl
    · rfl

/-- The keys follow the rule of recency, for a table of any size. -/
theorem keys_getOrCreate (t : BoundedTable κ ν) (key : κ) (defaultFactory : ν)
    (currentTime : ℚ) :
    (t.getOrCreate key defaultFactory currentTime).1.table.keys =
      use (room t.maxSize) t.table.keys key := by
  cases hget : t.table.get? key with
  | some e =>
    have hmem : key ∈ t.table.keys := (t.table.mem_keys key).mpr ⟨e, hget⟩
    rw [getOrCreate_of_mem hget, use, if_pos hmem]
    exact keys_move_to_end key _
  | none =>
    have hnot : key ∉ t.table.keys := (t.table.get?_eq_none key).mp hget
    rw [use, if_neg hnot]
    unfold getOrCreate
    rw [hget]
    dsimp only
    by_cases hfull : (t.table.size : ℤ) ≥ t.maxSize
    · have hnew : key ∉ t.evictLru.table.keys := by
        rw [keys_evictLru]
        exact fun hmem => hnot (List.mem_of_mem_tail hmem)
      rw [if_pos hfull, Dict.keys_set_of_not_mem _ _ hnew, keys_evictLru]
      split
      · rfl
      · next hroom =>
        -- full with room for one more: nothing was there to evict
        have hempty : t.table.keys.length = 0 := by
          rw [room, Dict.length_keys] at hroom
          rw [Dict.length_keys]
          omega
        rw [List.length_eq_zero_iff.mp hempty, List.tail_nil]
    · have hroom : ¬ room t.maxSize ≤ t.table.keys.length := by
        rw [room, Dict.length_keys]
        omega
      rw [if_neg hfull, if_neg hroom, Dict.keys_set_of_not_mem _ _ hnot]

/-! ### What the calls leave -/

/-- What holds of a table after the calls, each for a key at a time: the keys called last
are there, each with the time of its last call, in entries created before. -/
structure UseInv (n : ℕ) (calls : List (κ × ℚ)) (t : BoundedTable κ ν) : Prop where
  room_eq : room t.maxSize = n
  keys_eq : t.table.keys = recent n (calls.map Prod.fst)
  seen : ∀ k e, t.table.get? k = some e → lastCall calls k = some e.lastSeen
  counted : ∀ k e, t.table.get? k = some e → e.serial < t.created

theorem room_pos (maxSize : ℤ) : 0 < room maxSize := by
  unfold room
  omega

theorem useInv_new (maxSize : ℤ) : UseInv (room maxSize) [] (new maxSize : BoundedTable κ ν) := by
  refine ⟨rfl, ?_, nofun, nofun⟩
  show [] = recent _ []
  rw [recent, List.dedup_nil, List.rtake_nil]

/-- **One call** keeps the keys called last. -/
theorem UseInv.getOrCreate {n : ℕ} {calls : List (κ × ℚ)} {t : BoundedTable κ ν}
    (hi : UseInv n calls t) (key : κ) (defaultFactory : ν) (currentTime : ℚ) :
    UseInv n (calls ++ [(key, currentTime)])
      (t.getOrCreate key defaultFactory currentTime).1 := by
  have hself := t.get?_getOrCreate_self key defaultFactory currentTime
  refine ⟨?_, ?_, ?_, ?_⟩
  · rw [maxSize_getOrCreate]
    exact hi.room_eq
  · rw [keys_getOrCreate, hi.keys_eq, hi.room_eq, List.map_append]
    exact use_recent (hi.room_eq ▸ room_pos _) _ _
  · intro k e hget
    rw [lastCall_concat]
    by_cases hk : k = key
    · -- an old entry and a new one are both dated by this call
      subst hk
      rw [hself] at hget
      rw [if_pos rfl, ← Option.some.inj hget]
      unfold BoundedTable.getOrCreate
      split <;> rfl
    · rw [if_neg (Ne.symm hk)]
      exact hi.seen k e (get?_of_getOrCreate hk hget)
  · have hcreated : (t.getOrCreate key defaultFactory currentTime).2.serial <
        (t.getOrCreate key defaultFactory currentTime).1.created ∧
        t.created ≤ (t.getOrCreate key defaultFactory currentTime).1.created := by
      unfold BoundedTable.getOrCreate
      split
      · next e he => exact ⟨hi.counted key e he, le_rfl⟩
      · exact ⟨Nat.lt_succ_self _, Nat.le_succ _⟩
    intro k e hget
    by_cases hk : k = key
    · subst hk
      rw [hself] at hget
      rw [← Option.some.inj hget]
      exact hcreated.1
    · exact (hi.counted k e (get?_of_getOrCreate hk hget)).trans_le hcreated.2

/-- What the user of the table keeps in an entry makes no difference. -/
theorem UseInv.set {n : ℕ} {calls : List (κ × ℚ)} {t : BoundedTable κ ν} (hi : UseInv n calls t)
    {key : κ} {e e' : TableEntry ν} (hget : t.table.get? key = some e)
    (hseen : e'.lastSeen = e.lastSeen) (hserial : e'.serial = e.serial) :
    UseInv n calls { t with table := t.table.set key e' } := by
  -- an entry found now is one found before, up to what the user keeps in it
  have hentry : ∀ k d, (t.table.set key e').get? k = some d →
      ∃ d₀, t.table.get? k = some d₀ ∧ d.lastSeen = d₀.lastSeen ∧ d.serial = d₀.serial := by
    intro k d hd
    rw [Dict.get?_set] at hd
    split at hd
    · next hk =>
      obtain rfl := Option.some.inj hd
      exact ⟨e, hk ▸ hget, hseen, hserial⟩
    · exact ⟨d, hd, rfl, rfl⟩
  refine ⟨hi.room_eq, ?_, ?_, ?_⟩
  · show (t.table.set key e').keys = _
    rw [Dict.keys_set_of_mem _ _ ((t.table.mem_keys key).mpr ⟨e, hget⟩)]
    exact hi.keys_eq
  · intro k d hd
    obtain ⟨d₀, hd₀, hlast, -⟩ := hentry k d hd
    rw [hlast]
    exact hi.seen k d₀ hd₀
  · intro k d hd
    obtain ⟨d₀, hd₀, -, hcount⟩ := hentry k d hd
    rw [hcount]
    exact hi.counted k d₀ hd₀

/-- **A stale entry** is found by a key that comes back too late, and by no other. -/
theorem UseInv.stale_iff {n : ℕ} {calls : List (κ × ℚ)} {t : BoundedTable κ ν}
    (hi : UseInv n calls t) (ttl : ℚ) (key : κ) (time : ℚ) :
    (∃ e, t.table.get? key = some e ∧ ttl < time - e.lastSeen) ↔
      ReturnsIdle n ttl calls key time := by
  constructor
  · rintro ⟨e, hget, hold⟩
    have hmem : key ∈ recent n (calls.map Prod.fst) := by
      rw [← hi.keys_eq]
      exact (t.table.mem_keys key).mpr ⟨e, hget⟩
    have hcalled : key ∈ calls.map Prod.fst :=
      List.mem_dedup.mp ((List.drop_sublist _ _).subset hmem)
    obtain ⟨g, τ, g', rfl, hlast⟩ := exists_last_call hcalled
    -- the entry is dated by the last call for its key
    have hseen := hi.seen key e hget
    rw [lastCall_of_split τ hlast] at hseen
    obtain rfl : τ = e.lastSeen := Option.some.inj hseen
    rw [List.map_append, List.map_cons, mem_recent_iff hlast] at hmem
    exact ⟨g, _, g', rfl, hlast, hmem, hold⟩
  · rintro ⟨g, τ, g', rfl, hlast, hfew, hold⟩
    -- too few other keys came to have it evicted
    have hmem : key ∈ t.table.keys := by
      rw [hi.keys_eq, List.map_append, List.map_cons, mem_recent_iff hlast]
      exact hfew
    obtain ⟨e, hget⟩ := (t.table.mem_keys key).mp hmem
    have hseen := hi.seen key e hget
    rw [lastCall_of_split τ hlast] at hseen
    obtain rfl : τ = e.lastSeen := Option.some.inj hseen
    exact ⟨e, hget, hold⟩

/-- An entry that is found is answered, whatever its age. -/
theorem expires_iff {t : BoundedTable κ ν} {c : Request κ ν} (ttl : ℚ)
    (hcounted : ∀ e, t.table.get? c.key = some e → e.serial < t.created) :
    Expires ttl t c ↔
      ¬ ∃ e, t.table.get? c.key = some e ∧ ttl < c.currentTime - e.lastSeen := by
  constructor
  · rintro hexp ⟨e, hget, hold⟩
    have hnew := hexp e hget hold
    rw [getOrCreate_of_mem hget] at hnew
    have hserial : e.serial = t.created := congrArg TableEntry.serial hnew
    exact absurd (hcounted e hget) (by rw [hserial]; exact lt_irrefl _)
  · intro hfresh e hget hold
    exact absurd ⟨e, hget, hold⟩ hfresh

theorem useInv_requests (maxSize : ℤ) (h : List (Request κ ν)) :
    UseInv (room maxSize) (h.map fun c => (c.key, c.currentTime))
      ((requests maxSize).after h) := by
  refine (requests maxSize).invariant
    (fun h t => UseInv (room maxSize) (h.map fun c => (c.key, c.currentTime)) t)
    (useInv_new maxSize) ?_ h
  intro h c hi
  rw [List.map_append]
  exact hi.getOrCreate c.key c.defaultFactory c.currentTime

/-- The runs of a table in which entries expire. -/
theorem requests_along_iff (maxSize : ℤ) (ttl : ℚ) (h : List (Request κ ν)) :
    (requests maxSize).Along (Expires ttl) h ↔
      ∀ h₁ c h₂, h = h₁ ++ c :: h₂ → ¬ ReturnsIdle (room maxSize) ttl
        (h₁.map fun c => (c.key, c.currentTime)) c.key c.currentTime := by
  rw [Machine.along_iff]
  refine forall_congr' fun h₁ => forall_congr' fun c => forall_congr' fun h₂ => ?_
  refine imp_congr_right fun _ => ?_
  have hi := useInv_requests maxSize h₁
  rw [expires_iff ttl (hi.counted c.key), hi.stale_iff]

/-- **The method that is not called.** After `_evict_expired`, a call does answer a new
entry for a key that was not seen for too long. -/
theorem getOrCreate_evictExpired {ttl : ℚ} {t : BoundedTable κ ν} {c : Request κ ν}
    {e : TableEntry ν} (hget : t.table.get? c.key = some e)
    (hold : ttl < c.currentTime - e.lastSeen) :
    ((t.evictExpired ttl c.currentTime).getOrCreate c.key c.defaultFactory c.currentTime).2 =
      ⟨t.created, c.currentTime, c.currentTime, c.defaultFactory⟩ := by
  refine getOrCreate_of_not_mem ?_ _ _
  show (t.table.retain _).get? c.key = none
  rw [Dict.get?_retain, hget, Option.filter_some, decide_eq_true hold]
  rfl

end BoundedTable

/-! ### The flows -/

namespace FlowAssembler

open BoundedTable

/-- The calls that packets make on the table of flows. -/
def calls (h : List (Option FlowMeta × ℚ)) : List (FiveTuple × ℚ) :=
  h.filterMap fun x => x.1.bind fun m => if HasProtocol m then some (make5tuple m, x.2) else none

/-- A packet that comes more than `ttl` after the last one of its flow is not added to
the flow: it is the first one of a new flow. -/
def FlowExpires (ttl : ℚ) (t : BoundedTable FiveTuple AssembledFlow) (x : Option FlowMeta × ℚ) :
    Prop :=
  ∀ m e, x.1 = some m → HasProtocol m → t.table.get? (make5tuple m) = some e →
    ttl < x.2 - e.lastSeen →
    (processPacketMeta t x).2 = some (countPacket m ⟨t.created, x.2, x.2, flowFactory m⟩)

theorem useInv_flows (maxFlows : ℤ) (h : List (Option FlowMeta × ℚ)) :
    UseInv (room maxFlows) (calls h) ((machine maxFlows).after h) := by
  refine (machine maxFlows).invariant (fun h t => UseInv (room maxFlows) (calls h) t)
    (useInv_new maxFlows) ?_ h
  intro h x hi
  show UseInv _ (calls (h ++ [x])) (processPacketMeta ((machine maxFlows).after h) x).1
  have hcalls : calls (h ++ [x]) = calls h ++ calls [x] := List.filterMap_append
  rw [hcalls]
  obtain ⟨m, hm, hproto⟩ | hsilent := hasProtocol_or_silent x
  · have hone : calls [x] = [(make5tuple m, x.2)] := by
      simp [calls, hm, hproto]
    rw [hone, processPacketMeta_of_hasProtocol _ hm hproto]
    -- the call files the packet, and counting it keeps the times of the entry
    exact (hi.getOrCreate (make5tuple m) (flowFactory m) x.2).set
      (get?_getOrCreate_self _ _ _ _) rfl rfl
  · have hnone : calls [x] = [] := by
      cases hm : x.1 with
      | none => simp [calls, hm]
      | some m => simp [calls, hm, hsilent m hm]
    rw [hnone, List.append_nil, processPacketMeta_of_silent _ hsilent]
    exact hi

/-- The flows in which packets expire. -/
theorem flows_along_iff (maxFlows : ℤ) (ttl : ℚ) (h : List (Option FlowMeta × ℚ)) :
    (machine maxFlows).Along (FlowExpires ttl) h ↔
      ∀ h₁ x h₂ m, h = h₁ ++ x :: h₂ → x.1 = some m → HasProtocol m →
        ¬ ReturnsIdle (room maxFlows) ttl (calls h₁) (make5tuple m) x.2 := by
  rw [Machine.along_iff]
  refine forall_congr' fun h₁ => forall_congr' fun x => forall_congr' fun h₂ => ?_
  have hi := useInv_flows maxFlows h₁
  constructor
  · intro hall m heq hm hproto hidle
    obtain ⟨e, hget, hold⟩ := (hi.stale_iff ttl _ _).mpr hidle
    have hnew := hall heq m e hm hproto hget hold
    rw [processPacketMeta_of_hasProtocol _ hm hproto, getOrCreate_of_mem hget] at hnew
    -- the answered entry is the old one
    have hserial : e.serial = ((machine maxFlows).after h₁).created :=
      congrArg TableEntry.serial (Option.some.inj hnew)
    exact absurd (hi.counted _ e hget) (by rw [hserial]; exact lt_irrefl _)
  · intro hall heq m e hm hproto hget hold
    exact absurd ((hi.stale_iff ttl _ _).mp ⟨e, hget, hold⟩) (hall m heq hm hproto)

/-- **When entries expire.** For every table, every time to live and every run: a call
for a key whose entry was not seen for longer than that is answered with a new entry, and
a packet whose flow was idle for longer than that begins a new flow, throughout the run,
if and only if no key of the run comes back after a longer gap in which fewer other keys
were called than the table has room for. -/
theorem entries_expire_iff {κ ν : Type*} [DecidableEq κ] (maxSize : ℤ) (ttl : ℚ) :
    (∀ h : List (Request κ ν), (requests maxSize).Along (Expires ttl) h ↔
      ∀ h₁ c h₂, h = h₁ ++ c :: h₂ → ¬ ReturnsIdle (room maxSize) ttl
        (h₁.map fun c => (c.key, c.currentTime)) c.key c.currentTime) ∧
    (∀ h : List (Option FlowMeta × ℚ), (machine maxSize).Along (FlowExpires ttl) h ↔
      ∀ h₁ x h₂ m, h = h₁ ++ x :: h₂ → x.1 = some m → HasProtocol m →
        ¬ ReturnsIdle (room maxSize) ttl (calls h₁) (make5tuple m) x.2) :=
  ⟨requests_along_iff maxSize ttl, flows_along_iff maxSize ttl⟩

/-- **A flow that outlives its time.** Two packets of one connection come an hour apart.
The second one is added to the flow of the first, whose time to live is 300 seconds. -/
theorem idle_flow_kept :
    ¬ (∀ h : List (Option FlowMeta × ℚ), (h.map Prod.snd).Pairwise (· ≤ ·) →
      (machine 10000).Along (FlowExpires 300) h) ∧
    ¬ (∀ h : List (Request ℕ Unit), (h.map Request.currentTime).Pairwise (· ≤ ·) →
      (requests 10000).Along (Expires 300) h) := by
  -- an hour after its only call the key is still there
  have hidle : ∀ {κ : Type} [DecidableEq κ] (key : κ),
      ReturnsIdle (room 10000) 300 [(key, 0)] key 3600 := by
    intro κ _ key
    exact ⟨[], 0, [], rfl, List.not_mem_nil, room_pos 10000, by norm_num⟩
  refine ⟨fun hall => ?_, fun hall => ?_⟩
  · -- two packets of a flow, an hour apart
    have hrun := hall [(some request, 0), (some request, 3600)] (by norm_num)
    exact (flows_along_iff 10000 300 _).mp hrun [(some request, 0)] (some request, 3600) [] request
      rfl rfl (by decide) (hidle _)
  · have hrun := hall [⟨0, (), 0⟩, ⟨0, (), 3600⟩] (by norm_num)
    exact (requests_along_iff 10000 300 _).mp hrun [⟨0, (), 0⟩] ⟨0, (), 3600⟩ [] rfl (hidle _)

end FlowAssembler

end Sentrix

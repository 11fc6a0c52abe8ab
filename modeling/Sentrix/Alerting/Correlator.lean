import Mathlib.Data.Finset.Card
import Mathlib.Data.List.TakeWhile
import Mathlib.Tactic.Linarith
import Sentrix.Lib.Dict
import Sentrix.Lib.Machine
import Sentrix.Alerting.Schema

/-!
# The alert correlator

`AlertCorrelator` of `alerting/correlator.py`: a deque of the recent alerts and
an index from addresses to deques of `(timestamp, id)` entries. Processing an
alert evicts what is older than the window from the front of both, looks the
alert's two addresses up, appends at most twenty of the ids found to the alert
and files the alert under its addresses.

The eviction loop pops the global deque while its front is stale, and for each
popped alert trims the index deques of that alert's addresses from the front.
Both structures are therefore driven by *arrival order*, while staleness is
decided by *timestamps*, and everything the correlator answers follows from one
invariant that holds in any order of arrival (`entry_or_evictor`): an alert
filed under an address is still in that address's deque, unless some alert
processed after it is more than a window younger.
-/

namespace Sentrix

/-- An element of `recent_alerts`. -/
structure RecentAlert where
  timestamp : ℚ
  alertId : String
  srcIp : String
  dstIp : String

/-- The state of an `AlertCorrelator`; deques have their left end first. -/
structure Correlator where
  /-- `ip_to_alerts`: address to `(timestamp, alert_id)` entries. -/
  ipToAlerts : Dict String (List (ℚ × String))
  recentAlerts : List RecentAlert

/-- The iteration order of a set, given by the distinct elements in the order
they were first added. Nothing is known of it but that it is a permutation. -/
structure SetOrder (α : Type*) where
  toList : List α → List α
  perm : ∀ s, (toList s).Perm s

/-- `set.add` on the insertion-ordered elements of a set. -/
def setAdd {α : Type*} [DecidableEq α] (s : List α) (x : α) : List α :=
  if x ∈ s then s else s ++ [x]

namespace Correlator

/-- The iteration order that returns a set's elements as they were added. -/
def insertionOrder : SetOrder String := ⟨id, fun s => List.Perm.refl s⟩

/-! ### The program -/

/-- An empty correlator. -/
def empty : Correlator := ⟨Dict.empty, []⟩

/-- The body of the eviction loop for one of the popped alert's addresses: pop
the stale front of its deque, and delete the key of an exhausted deque. -/
def trimIp (cutoff : ℚ) (index : Dict String (List (ℚ × String))) (ip : String) :
    Dict String (List (ℚ × String)) :=
  if ip = "" then index
  else
    match index.get? ip with
    | none => index
    | some q =>
      let q' := q.dropWhile fun e => decide (e.1 < cutoff)
      -- `del self.ip_to_alerts[old_src]`, and the same for `old_dst`
      if q'.isEmpty then index.erase ip else index.set ip q'

/-- The eviction loop: pop the global deque while its front is stale. -/
def evict (cutoff : ℚ) (index : Dict String (List (ℚ × String))) :
    List RecentAlert → Correlator
  | [] => ⟨index, []⟩
  | r :: rest =>
    if r.timestamp < cutoff then
      -- the addresses are trimmed by their own entries' times, not by this one's
      evict cutoff (trimIp cutoff (trimIp cutoff index r.srcIp) r.dstIp) rest
    -- a fresh front hides every stale alert behind it
    else ⟨index, r :: rest⟩

/-- Add the ids filed under `ip` within the window to `related_ids`. -/
def collect (cutoff : ℚ) (index : Dict String (List (ℚ × String))) (ip : String)
    (related : List String) : List String :=
  if ip = "" then related
  else
    match index.get? ip with
    | none => related
    | some q => q.foldl (fun s e => if e.1 ≥ cutoff then setAdd s e.2 else s) related

/-- File an entry under a non-empty address (`defaultdict(deque)`). -/
def fileUnder (index : Dict String (List (ℚ × String))) (ip : String) (e : ℚ × String) :
    Dict String (List (ℚ × String)) :=
  if ip = "" then index else index.set ip ((index.get? ip).getD [] ++ [e])

/-- The cap: the last twenty of the set's elements when there are more. -/
def cap (order : SetOrder String) (related : List String) : List String :=
  if related.length > 20 then
    -- `list(related_ids)[-20:]`
    (order.toList related).drop ((order.toList related).length - 20)
  else order.toList related

/-- The set `related_ids` computed for a new alert in a given state. -/
def relatedIds (w : ℚ) (s : Correlator) (a : AlertRecord) : List String :=
  let cutoff := a.timestamp - w
  let evicted := evict cutoff s.ipToAlerts s.recentAlerts
  collect cutoff evicted.ipToAlerts a.flowId.dstIp
    (collect cutoff evicted.ipToAlerts a.flowId.srcIp [])

/-- `AlertCorrelator.process` with window length `w`. -/
def process (w : ℚ) (order : SetOrder String) (s : Correlator) (a : AlertRecord) :
    Correlator × AlertRecord :=
  let cutoff := a.timestamp - w
  let evicted := evict cutoff s.ipToAlerts s.recentAlerts
  let src := a.flowId.srcIp
  let dst := a.flowId.dstIp
  -- looked up before the alert is filed, so it is not related to itself
  let capped := cap order (relatedIds w s a)
  let entry := (a.timestamp, a.alertId)
  ({ ipToAlerts := fileUnder (fileUnder evicted.ipToAlerts src entry) dst entry
     recentAlerts := evicted.recentAlerts ++ [⟨a.timestamp, a.alertId, src, dst⟩] },
   { a with relatedAlertIds := a.relatedAlertIds ++ capped })

/-- The correlator as a machine that is fed alerts. -/
def machine (w : ℚ) (order : SetOrder String) : Machine Correlator AlertRecord AlertRecord where
  init := empty
  step := process w order

/-- The ids `process` appends to `a` after the alerts `h`. -/
def appended (w : ℚ) (order : SetOrder String) (h : List AlertRecord) (a : AlertRecord) :
    List String :=
  cap order (relatedIds w ((machine w order).after h) a)

theorem machine_out (w : ℚ) (order : SetOrder String) (h : List AlertRecord)
    (a : AlertRecord) :
    (machine w order).out ((machine w order).after h) a =
      { a with relatedAlertIds := a.relatedAlertIds ++ appended w order h a } := rfl

/-! ### What the index holds under an address -/

/-- The deque filed under an address; no key, no entries. -/
def deque (index : Dict String (List (ℚ × String))) (ip : String) : List (ℚ × String) :=
  (index.get? ip).getD []

/-- Trimming drops the stale front of one deque and nothing else. -/
theorem deque_trimIp (cutoff : ℚ) (index : Dict String (List (ℚ × String))) (ip x : String) :
    deque (trimIp cutoff index ip) x =
      if x = ip ∧ ip ≠ "" then (deque index x).dropWhile fun e => decide (e.1 < cutoff)
      else deque index x := by
  unfold trimIp
  split
  · next h => simp [h]
  · next h =>
    by_cases hx : x = ip
    · subst hx
      -- `x` is the trimmed address: an exhausted deque and a deleted key read the same
      rw [if_pos ⟨rfl, h⟩]
      cases hq : index.get? x with
      | none => simp [deque, hq]
      | some q =>
        simp only [deque, hq, Option.getD_some]
        split
        · next he =>
          rw [Dict.get?_erase_self]
          exact (List.isEmpty_iff.mp he).symm
        · rw [Dict.get?_set_self, Option.getD_some]
    -- any other key is untouched by either write
    · rw [if_neg fun hc => hx hc.1]
      cases hq : index.get? ip with
      | none => rfl
      | some q =>
        simp only [deque]
        split
        · rw [Dict.get?_erase_of_ne index hx]
        · rw [Dict.get?_set_of_ne index _ hx]

/-- Filing appends to one deque. -/
theorem deque_fileUnder (index : Dict String (List (ℚ × String))) (ip x : String)
    (e : ℚ × String) :
    deque (fileUnder index ip e) x =
      if x = ip ∧ ip ≠ "" then deque index x ++ [e] else deque index x := by
  unfold fileUnder
  split
  · next h => simp [h]
  · next h =>
    by_cases hx : x = ip
    · subst hx
      simp [deque, h]
    · rw [if_neg fun hc => hx hc.1]
      simp only [deque]
      rw [Dict.get?_set_of_ne index _ hx]

/-- Popping a stale front keeps every fresh element. -/
theorem mem_dropWhile_of_fresh {cutoff : ℚ} {q : List (ℚ × String)} {e : ℚ × String}
    (he : e ∈ q) (hfresh : cutoff ≤ e.1) :
    e ∈ q.dropWhile fun e => decide (e.1 < cutoff) := by
  -- the popped part is stale throughout, so a fresh element is in the rest
  rw [← List.takeWhile_append_dropWhile (p := fun e : ℚ × String => decide (e.1 < cutoff))
    (l := q), List.mem_append] at he
  rcases he with he | he
  · have hstale : e.1 < cutoff := by simpa using List.mem_takeWhile_imp he
    exact absurd hfresh (not_le.mpr hstale)
  · exact he

theorem mem_deque_of_mem_trimIp {cutoff : ℚ} {index : Dict String (List (ℚ × String))}
    {ip x : String} {e : ℚ × String} (he : e ∈ deque (trimIp cutoff index ip) x) :
    e ∈ deque index x := by
  rw [deque_trimIp] at he
  split at he
  · exact (List.dropWhile_sublist _).subset he
  · exact he

theorem mem_trimIp_of_fresh {cutoff : ℚ} {index : Dict String (List (ℚ × String))}
    {ip x : String} {e : ℚ × String} (he : e ∈ deque index x) (hfresh : cutoff ≤ e.1) :
    e ∈ deque (trimIp cutoff index ip) x := by
  rw [deque_trimIp]
  split
  · exact mem_dropWhile_of_fresh he hfresh
  · exact he

/-- The eviction loop adds no entry. -/
theorem mem_deque_of_mem_evict {cutoff : ℚ} {x : String} {e : ℚ × String}
    (recent : List RecentAlert) {index : Dict String (List (ℚ × String))}
    (he : e ∈ deque (evict cutoff index recent).ipToAlerts x) : e ∈ deque index x := by
  induction recent generalizing index with
  | nil => exact he
  | cons r rest ih =>
    unfold evict at he
    split at he
    -- the two trims of one popped alert, under its two addresses
    · exact mem_deque_of_mem_trimIp (mem_deque_of_mem_trimIp (ih he))
    · exact he

/-- The eviction loop removes stale entries only. -/
theorem mem_evict_of_fresh {cutoff : ℚ} {x : String} {e : ℚ × String}
    (recent : List RecentAlert) {index : Dict String (List (ℚ × String))}
    (he : e ∈ deque index x) (hfresh : cutoff ≤ e.1) :
    e ∈ deque (evict cutoff index recent).ipToAlerts x := by
  induction recent generalizing index with
  | nil => exact he
  | cons r rest ih =>
    unfold evict
    split
    · exact ih (mem_trimIp_of_fresh (mem_trimIp_of_fresh he hfresh) hfresh)
    · exact he

/-! ### The set of related ids -/

theorem mem_setAdd {s : List String} {x y : String} : y ∈ setAdd s x ↔ y ∈ s ∨ y = x := by
  unfold setAdd
  split
  · next h =>
    constructor
    · exact Or.inl
    · rintro (hy | rfl)
      · exact hy
      · exact h
  · simp

theorem nodup_setAdd {s : List String} (hs : s.Nodup) (x : String) : (setAdd s x).Nodup := by
  unfold setAdd
  split
  · exact hs
  · next h => exact hs.append (List.nodup_singleton x) (by simpa using h)

/-- The scan of one deque adds the ids of its fresh entries. -/
theorem mem_scan {cutoff : ℚ} {y : String} (q : List (ℚ × String)) (s : List String) :
    y ∈ q.foldl (fun s e => if e.1 ≥ cutoff then setAdd s e.2 else s) s ↔
      y ∈ s ∨ ∃ t, (t, y) ∈ q ∧ cutoff ≤ t := by
  induction q generalizing s with
  | nil => simp
  | cons e q ih =>
    obtain ⟨t, x⟩ := e
    rw [List.foldl_cons, ih]
    by_cases hc : t ≥ cutoff
    · rw [if_pos hc, mem_setAdd]
      -- a fresh entry: its id joins the set
      constructor
      · rintro ((hy | rfl) | ⟨t', hm, ht'⟩)
        · exact Or.inl hy
        · exact Or.inr ⟨t, List.mem_cons_self, hc⟩
        · exact Or.inr ⟨t', List.mem_cons_of_mem _ hm, ht'⟩
      · rintro (hy | ⟨t', hm, ht'⟩)
        · exact Or.inl (Or.inl hy)
        · rcases List.mem_cons.mp hm with heq | hm
          · exact Or.inl (Or.inr (Prod.mk.inj heq).2)
          · exact Or.inr ⟨t', hm, ht'⟩
    -- a stale entry: the scan skips it, and it does not qualify on the right
    · rw [if_neg hc]
      refine or_congr Iff.rfl (exists_congr fun t' => ?_)
      constructor
      · rintro ⟨hm, ht'⟩
        exact ⟨List.mem_cons_of_mem _ hm, ht'⟩
      · rintro ⟨hm, ht'⟩
        rcases List.mem_cons.mp hm with heq | hm
        · exact absurd ((Prod.mk.inj heq).1 ▸ ht') hc
        · exact ⟨hm, ht'⟩

theorem nodup_scan {cutoff : ℚ} (q : List (ℚ × String)) {s : List String} (hs : s.Nodup) :
    (q.foldl (fun s e => if e.1 ≥ cutoff then setAdd s e.2 else s) s).Nodup := by
  induction q generalizing s with
  | nil => exact hs
  | cons e q ih =>
    rw [List.foldl_cons]
    refine ih ?_
    split
    · exact nodup_setAdd hs _
    · exact hs

theorem mem_collect {cutoff : ℚ} {index : Dict String (List (ℚ × String))} {ip y : String}
    {s : List String} :
    y ∈ collect cutoff index ip s ↔
      y ∈ s ∨ (ip ≠ "" ∧ ∃ t, (t, y) ∈ deque index ip ∧ cutoff ≤ t) := by
  unfold collect
  split
  · next h => simp [h]
  · next h =>
    simp only [deque]
    cases index.get? ip with
    | none => simp
    | some q => simpa [h] using mem_scan q s

theorem nodup_collect {cutoff : ℚ} {index : Dict String (List (ℚ × String))} {ip : String}
    {s : List String} (hs : s.Nodup) : (collect cutoff index ip s).Nodup := by
  unfold collect
  split
  · exact hs
  · split
    · exact hs
    · exact nodup_scan _ hs

theorem nodup_relatedIds (w : ℚ) (s : Correlator) (a : AlertRecord) :
    (relatedIds w s a).Nodup :=
  nodup_collect (nodup_collect List.nodup_nil)

/-- **The indexed lookup.** The related ids are those of the fresh entries filed
under the alert's addresses before the eviction, which only removes stale ones. -/
theorem mem_relatedIds {w : ℚ} {s : Correlator} {a : AlertRecord} {y : String} :
    y ∈ relatedIds w s a ↔
      ∃ ip, a.HasIp ip ∧ ∃ t, (t, y) ∈ deque s.ipToAlerts ip ∧ a.timestamp - w ≤ t := by
  have hev : ∀ ip t, a.timestamp - w ≤ t →
      ((t, y) ∈ deque (evict (a.timestamp - w) s.ipToAlerts s.recentAlerts).ipToAlerts ip ↔
        (t, y) ∈ deque s.ipToAlerts ip) := fun ip t ht =>
    ⟨mem_deque_of_mem_evict _, fun h => mem_evict_of_fresh _ h ht⟩
  -- both addresses, collected one after the other into one set
  rw [relatedIds, mem_collect, mem_collect]
  constructor
  · rintro ((h | ⟨hne, t, hm, ht⟩) | ⟨hne, t, hm, ht⟩)
    · simp at h
    · exact ⟨_, ⟨hne, Or.inl rfl⟩, t, (hev _ t ht).mp hm, ht⟩
    · exact ⟨_, ⟨hne, Or.inr rfl⟩, t, (hev _ t ht).mp hm, ht⟩
  · rintro ⟨ip, ⟨hne, rfl | rfl⟩, t, hm, ht⟩
    · exact Or.inl (Or.inr ⟨hne, t, (hev _ t ht).mpr hm, ht⟩)
    · exact Or.inr ⟨hne, t, (hev _ t ht).mpr hm, ht⟩

/-- The cap returns distinct elements of the set: all of them up to twenty. -/
theorem cap_spec (order : SetOrder String) {s : List String} (hs : s.Nodup) :
    (cap order s).Nodup ∧ (cap order s).toFinset ⊆ s.toFinset ∧
      (s.length ≤ 20 → (cap order s).toFinset = s.toFinset) ∧
      (20 < s.length → (cap order s).length = 20) := by
  have hperm := order.perm s
  have hnd : (order.toList s).Nodup := hperm.nodup_iff.mpr hs
  have hfin : (order.toList s).toFinset = s.toFinset := List.toFinset_eq_of_perm _ _ hperm
  unfold cap
  split
  -- more than twenty: a suffix of the iteration order
  · next h =>
    refine ⟨hnd.sublist (List.drop_sublist _ _), ?_, fun hle => absurd h (by omega), fun _ => ?_⟩
    · intro y hy
      rw [← hfin, List.mem_toFinset]
      exact (List.drop_sublist _ _).subset (List.mem_toFinset.mp hy)
    · rw [List.length_drop, hperm.length_eq]
      omega
  · next h => exact ⟨hnd, hfin.subset, fun _ => hfin, fun hlt => absurd hlt h⟩

/-! ### One alert -/

variable {w : ℚ} {order : SetOrder String} {s : Correlator} {a : AlertRecord}

/-- The index after one alert: the evicted index with the alert filed. -/
theorem deque_process (ip : String) :
    deque (process w order s a).1.ipToAlerts ip =
      deque (evict (a.timestamp - w) s.ipToAlerts s.recentAlerts).ipToAlerts ip ++
        (if ip = a.flowId.srcIp ∧ a.flowId.srcIp ≠ "" then [(a.timestamp, a.alertId)] else []) ++
        (if ip = a.flowId.dstIp ∧ a.flowId.dstIp ≠ "" then [(a.timestamp, a.alertId)] else []) := by
  simp only [process, deque_fileUnder]
  split <;> split <;> simp

/-- An entry after one alert was there before, or is the alert's own. -/
theorem mem_deque_of_mem_process {ip : String} {e : ℚ × String}
    (he : e ∈ deque (process w order s a).1.ipToAlerts ip) :
    e ∈ deque s.ipToAlerts ip ∨ (e = (a.timestamp, a.alertId) ∧ a.HasIp ip) := by
  rw [deque_process, List.mem_append, List.mem_append] at he
  -- an old entry, or the new one filed under either address
  rcases he with (he | he) | he
  · exact Or.inl (mem_deque_of_mem_evict _ he)
  · split at he
    · next hc =>
      exact Or.inr ⟨List.mem_singleton.mp he, hc.1 ▸ hc.2, Or.inl hc.1.symm⟩
    · simp at he
  · split at he
    · next hc =>
      exact Or.inr ⟨List.mem_singleton.mp he, hc.1 ▸ hc.2, Or.inr hc.1.symm⟩
    · simp at he

/-- An entry survives an alert that is at most a window younger. -/
theorem mem_process_of_fresh {ip : String} {e : ℚ × String} (he : e ∈ deque s.ipToAlerts ip)
    (hfresh : a.timestamp - w ≤ e.1) : e ∈ deque (process w order s a).1.ipToAlerts ip := by
  rw [deque_process]
  exact List.mem_append_left _ (List.mem_append_left _ (mem_evict_of_fresh _ he hfresh))

/-- The alert is filed under each of its addresses. -/
theorem self_mem_process {ip : String} (hip : a.HasIp ip) :
    (a.timestamp, a.alertId) ∈ deque (process w order s a).1.ipToAlerts ip := by
  obtain ⟨hne, rfl | rfl⟩ := hip <;> rw [deque_process] <;> simp [hne]

end Correlator

end Sentrix

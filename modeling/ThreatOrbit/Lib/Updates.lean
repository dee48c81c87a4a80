import Mathlib

/-
  Updates of the rows of a table by their keys, one statement
  after another.

  Key definitions:
    * `updateMany`, `touched`
-/

---- Keyed Updates

namespace Lib

variable {α β κ : Type*} [DecidableEq κ]

/- `UPDATE … SET … WHERE key = ?`. -/
def updateOne
    (key : α → κ)
    (set : β → α → α)
    (rows : List α)
    (u : β × κ) : List α :=
  rows.map fun r => if key r = u.2 then set u.1 r else r

/- `executemany` of that statement. -/
def updateMany
    (key : α → κ)
    (set : β → α → α)
    (rows : List α)
    (us : List (β × κ)) : List α :=
  us.foldl (updateOne key set) rows

/- What the updates make of one row. -/
def touched
    (key : α → κ)
    (set : β → α → α)
    (us : List (β × κ))
    (r : α) : α :=
  us.foldl (fun r u => if key r = u.2 then set u.1 r else r) r

theorem updateMany_eq_map
    (key : α → κ) (set : β → α → α) (rows : List α)
    (us : List (β × κ)) :
    updateMany key set rows us =
      rows.map (touched key set us) := by
  induction us generalizing rows with
  | nil => exact (List.map_id' rows).symm
  | cons u rest ih =>
      unfold updateMany at ih ⊢
      rw [List.foldl_cons, ih, updateOne, List.map_map]
      rfl

variable {key : α → κ} {set : β → α → α}

/- Updates of other keys leave a row as it is. -/
theorem touched_of_not_mem
    {us : List (β × κ)} {r : α}
    (hNot : ∀ u ∈ us, u.2 ≠ key r) :
    touched key set us r = r := by
  induction us with
  | nil => rfl
  | cons u rest ih =>
      rw [List.forall_mem_cons] at hNot
      unfold touched at ih ⊢
      rw [List.foldl_cons, if_neg (Ne.symm hNot.1)]
      exact ih hNot.2

theorem touched_append
    (front back : List (β × κ)) (r : α) :
    touched key set (front ++ back) r =
      touched key set back (touched key set front r) :=
  List.foldl_append

/- One update among those of other keys is what counts. -/
theorem touched_of_mem
    (hKey : ∀ b r, key (set b r) = key r) {us : List (β × κ)}
    (hNodup : (us.map Prod.snd).Nodup) {u : β × κ} {r : α}
    (hIn : u ∈ us) (hSame : u.2 = key r) :
    touched key set us r = set u.1 r := by
  rcases List.append_of_mem hIn with ⟨front, back, rfl⟩
  rw [List.map_append, List.map_cons, List.nodup_append,
    List.nodup_cons] at hNodup
  rcases hNodup with ⟨_, ⟨hBack, _⟩, hFront⟩
  have hBefore : touched key set front r = r := by
    apply touched_of_not_mem
    intro v hv hIs
    exact hFront _ (List.mem_map_of_mem hv) _
      List.mem_cons_self (hIs.trans hSame.symm)
  rw [touched_append, hBefore]
  unfold touched
  rw [List.foldl_cons, if_pos hSame.symm]
  apply touched_of_not_mem
  intro v hv hIs
  rw [hKey] at hIs
  apply hBack
  rw [hSame, ← hIs]
  exact List.mem_map_of_mem hv

/- Updates that a scan of some rows of a table collected change
these rows, whatever the order of the scan, also after
others have changed them. -/
theorem touched_scan
    (hKey : ∀ b r, key (set b r) = key r)
    {rows scan : List α} {q p : α → Bool}
    (hRows : (rows.map key).Nodup)
    (hScan : scan.Perm (rows.filter q)) (f : α → β) {r r' : α}
    (hr : r ∈ rows) (hSame : key r' = key r) :
    touched key set ((scan.filter p).map fun r => (f r, key r))
        r' =
      if q r && p r then set (f r) r' else r' := by
  have hKeys :
      (((scan.filter p).map fun r => (f r, key r)).map
        Prod.snd).Nodup := by
    have hMap :
        ((scan.filter p).map fun r => (f r, key r)).map
            Prod.snd =
          (scan.filter p).map key := by
      rw [List.map_map]
      rfl
    have hPerm : ((scan.filter p).map key).Perm
        (((rows.filter q).filter p).map key) :=
      (hScan.filter p).map key
    rw [hMap, hPerm.nodup_iff]
    exact hRows.sublist
      ((List.filter_sublist.trans List.filter_sublist).map key)
  by_cases hTouch : q r && p r
  · rw [if_pos hTouch]
    rw [Bool.and_eq_true] at hTouch
    have hMem : (f r, key r) ∈
        (scan.filter p).map fun r => (f r, key r) := by
      refine List.mem_map.mpr ⟨r, ?_, rfl⟩
      rw [List.mem_filter, hScan.mem_iff, List.mem_filter]
      exact ⟨⟨hr, hTouch.1⟩, hTouch.2⟩
    exact touched_of_mem hKey hKeys hMem hSame.symm
  · rw [if_neg hTouch]
    apply touched_of_not_mem
    intro u hu hIs
    rcases List.mem_map.mp hu with ⟨s, hs, rfl⟩
    rw [List.mem_filter, hScan.mem_iff, List.mem_filter] at hs
    rw [hSame] at hIs
    -- rows with one key are one row
    have hRow : s = r :=
      List.inj_on_of_nodup_map hRows hs.1.1 hr hIs
    rw [← hRow, hs.1.2, hs.2] at hTouch
    exact hTouch rfl

end Lib

import Mathlib.Data.List.Induction
import Reckoner.Proofs.Parsing.Within

/-!
# What a merged failure says

A choice all of whose alternatives failed reports one failure for all of theirs: what any of them
expected, in the order in which it first came up, at the furthest point that any of them reached.
Failures can also be merged in stages, the failure of one stage standing for all of its own in the
next, and as long as they point within the text it makes no difference: what comes up again has come
up before, and points within one text are told apart by their lengths.
-/

namespace Reckoner.Failure

/-! ### What was expected -/

section

variable {α : Type} [BEq α] [LawfulBEq α]

theorem eraseDups_concat_of_mem {items : List α} {item : α} (h : item ∈ items) :
    (items ++ [item]).eraseDups = items.eraseDups := by
  simp [List.eraseDups_append, List.removeAll, h]

theorem eraseDups_concat_of_notMem {items : List α} {item : α} (h : item ∉ items) :
    (items ++ [item]).eraseDups = items.eraseDups ++ [item] := by
  simp [List.eraseDups_append, List.removeAll, h, List.eraseDups_cons]

/-- What is kept stands in the order in which it first came up. -/
theorem pairwise_idxOf_eraseDups (items : List α) :
    items.eraseDups.Pairwise fun a b => items.idxOf a < items.idxOf b := by
  induction items using List.reverseRecOn with
  | nil => simp
  | append_singleton items item ih =>
    -- An item that is added does not change where the others first came up.
    have hkept : items.eraseDups.Pairwise fun a b =>
        (items ++ [item]).idxOf a < (items ++ [item]).idxOf b := by
      refine ih.imp_of_mem fun ha hb hlt => ?_
      rwa [List.idxOf_append_of_mem (List.mem_eraseDups.mp ha),
        List.idxOf_append_of_mem (List.mem_eraseDups.mp hb)]
    by_cases hmem : item ∈ items
    · rwa [eraseDups_concat_of_mem hmem]
    · rw [eraseDups_concat_of_notMem hmem, List.pairwise_append]
      refine ⟨hkept, List.pairwise_singleton _ _, fun a ha b hb => ?_⟩
      have hold : a ∈ items := List.mem_eraseDups.mp ha
      have hlt : items.idxOf a < items.length := List.idxOf_lt_length_iff.mpr hold
      obtain rfl := List.mem_singleton.mp hb
      rw [List.idxOf_append_of_mem hold, List.idxOf_append_of_notMem hmem]
      omega

theorem eraseDups_append_eraseDups (before items : List α) :
    (before ++ items.eraseDups).eraseDups = (before ++ items).eraseDups := by
  induction items using List.reverseRecOn with
  | nil => simp
  | append_singleton items item ih =>
    rw [← List.append_assoc]
    by_cases hmem : item ∈ items
    · rw [eraseDups_concat_of_mem hmem, ih,
        eraseDups_concat_of_mem (List.mem_append_right before hmem)]
    · rw [eraseDups_concat_of_notMem hmem, ← List.append_assoc]
      by_cases hbefore : item ∈ before
      · rw [eraseDups_concat_of_mem (List.mem_append_left _ hbefore), ih,
          eraseDups_concat_of_mem (List.mem_append_left _ hbefore)]
      · rw [eraseDups_concat_of_notMem (by simp [hbefore, hmem]), ih,
          eraseDups_concat_of_notMem (by simp [hbefore, hmem])]

theorem eraseDups_append_congr {items others : List α} (h : items.eraseDups = others.eraseDups)
    (after : List α) : (items ++ after).eraseDups = (others ++ after).eraseDups := by
  have hmem : ∀ item, item ∈ items ↔ item ∈ others := by
    intro item
    rw [← List.mem_eraseDups, h, List.mem_eraseDups]
  have hremoved : after.removeAll items = after.removeAll others := by
    simp [List.removeAll, hmem]
  rw [List.eraseDups_append, List.eraseDups_append, h, hremoved]

end

/-! ### The furthest point -/

theorem shortest?_eq_none_iff {texts : List Text} : shortest? texts = none ↔ texts = [] := by
  cases texts with
  | nil => simp [shortest?]
  | cons text texts =>
    rw [shortest?]
    split
    · split <;> simp
    · simp

/-- The first of the shortest texts. -/
theorem shortest?_eq_some {texts : List Text} {text : Text} (h : shortest? texts = some text) :
    ∃ before after, texts = before ++ text :: after ∧
      (∀ other ∈ before, text.length < other.length) ∧
      ∀ other ∈ after, text.length ≤ other.length := by
  induction texts generalizing text with
  | nil => cases h
  | cons first texts ih =>
    rw [shortest?] at h
    cases hothers : shortest? texts with
    | none =>
      obtain rfl := shortest?_eq_none_iff.mp hothers
      simp only [hothers, Option.some.injEq] at h
      exact ⟨[], [], by simp [h], by simp, by simp⟩
    | some other =>
      obtain ⟨before, after, rfl, hbefore, hafter⟩ := ih hothers
      simp only [hothers] at h
      split at h
      · next hlt =>
        obtain rfl := Option.some.inj h
        refine ⟨first :: before, after, rfl, ?_, hafter⟩
        intro point hpoint
        rcases List.mem_cons.mp hpoint with rfl | hpoint
        · exact hlt
        · exact hbefore point hpoint
      · next hle =>
        obtain rfl := Option.some.inj h
        refine ⟨[], before ++ other :: after, rfl, by simp, ?_⟩
        intro point hpoint
        rcases List.mem_append.mp hpoint with hpoint | hpoint
        · have hlt := hbefore point hpoint
          omega
        · rcases List.mem_cons.mp hpoint with rfl | hpoint
          · omega
          · have hle' := hafter point hpoint
            omega

/-- The furthest of some points in a text, and its start if there are none. -/
def furthest (text : Text) (points : List Text) : Text := (shortest? points).getD text

theorem furthest_mem (text : Text) (points : List Text) :
    furthest text points ∈ text :: points := by
  rw [furthest]
  cases hshortest : shortest? points with
  | none => exact List.mem_cons_self
  | some point => exact List.mem_cons_of_mem _ (mem_of_shortest? hshortest)

section

variable {text : Text} {points : List Text} (h : ∀ point ∈ points, point <:+ text)

include h

theorem suffix_of_mem {point : Text} (hpoint : point ∈ text :: points) : point <:+ text := by
  rcases List.mem_cons.mp hpoint with rfl | hpoint
  · exact List.suffix_rfl
  · exact h point hpoint

theorem length_furthest_le {point : Text} (hpoint : point ∈ text :: points) :
    (furthest text points).length ≤ point.length := by
  rcases List.mem_cons.mp hpoint with rfl | hpoint
  · exact (suffix_of_mem h (furthest_mem point points)).length_le
  · rw [furthest]
    cases hshortest : shortest? points with
    | none =>
      rw [shortest?_eq_none_iff.mp hshortest] at hpoint
      cases hpoint
    | some first =>
      obtain ⟨before, after, rfl, hbefore, hafter⟩ := shortest?_eq_some hshortest
      rw [List.mem_append, List.mem_cons] at hpoint
      rcases hpoint with hpoint | rfl | hpoint
      · exact Nat.le_of_lt (hbefore point hpoint)
      · exact Nat.le_refl _
      · exact hafter point hpoint

/-- Points within a text are told apart by their lengths, so a furthest one is the only one. -/
theorem furthest_eq {point : Text} (hpoint : point ∈ text :: points)
    (hle : ∀ other ∈ text :: points, point.length ≤ other.length) :
    furthest text points = point := by
  have hmem := furthest_mem text points
  have hlength : (furthest text points).length = point.length :=
    Nat.le_antisymm (length_furthest_le h hpoint) (hle _ hmem)
  have hsuffix : furthest text points <:+ point :=
    List.suffix_of_suffix_length_le (suffix_of_mem h hmem) (suffix_of_mem h hpoint)
      (Nat.le_of_eq hlength)
  exact hsuffix.eq_of_length hlength

end

theorem furthest_staged {text : Text} {before inner after : List Text}
    (h : ∀ point ∈ before ++ inner ++ after, point <:+ text) :
    furthest text (before ++ furthest text inner :: after) =
      furthest text (before ++ inner ++ after) := by
  have hinner : ∀ point ∈ inner, point <:+ text := fun point hpoint => h point (by simp [hpoint])
  have hstage := furthest_mem text inner
  have hstaged : ∀ point ∈ before ++ furthest text inner :: after, point <:+ text := by
    intro point hpoint
    rw [List.mem_append, List.mem_cons] at hpoint
    rcases hpoint with hpoint | rfl | hpoint
    · exact h point (by simp [hpoint])
    · exact suffix_of_mem hinner hstage
    · exact h point (by simp [hpoint])
  refine (furthest_eq h ?_ fun point hpoint => ?_).symm
  · have hmem := furthest_mem text (before ++ furthest text inner :: after)
    grind
  · by_cases hmem : point ∈ inner
    · exact Nat.le_trans (length_furthest_le hstaged (by simp))
        (length_furthest_le hinner (List.mem_cons_of_mem _ hmem))
    · exact length_furthest_le hstaged (by grind)

/-! ### One failure for all -/

/-- The furthest point that some failures reached in a text: the first of the shortest texts they
point at, and all of the text if none of them points anywhere. -/
def IsFurthest (text : Text) (failures : List Failure) (unread : Text) : Prop :=
  (∃ before failure after, failures = before ++ failure :: after ∧
    failure.remaining = some unread ∧
    (∀ other ∈ before, ∀ point, other.remaining = some point → unread.length < point.length) ∧
    ∀ other ∈ after, ∀ point, other.remaining = some point → unread.length ≤ point.length) ∨
  (∀ failure ∈ failures, failure.remaining = none) ∧ unread = text

theorem isFurthest_furthest (text : Text) (failures : List Failure) :
    IsFurthest text failures (furthest text (failures.filterMap (·.remaining))) := by
  rw [furthest]
  cases hshortest : shortest? (failures.filterMap (·.remaining)) with
  | none =>
    have hnone := shortest?_eq_none_iff.mp hshortest
    exact .inr ⟨List.filterMap_eq_nil_iff.mp hnone, rfl⟩
  | some unread =>
    obtain ⟨before, after, hsplit, hbefore, hafter⟩ := shortest?_eq_some hshortest
    obtain ⟨earlier, rest, rfl, rfl, hrest⟩ := List.filterMap_eq_append_iff.mp hsplit
    obtain ⟨silent, failure, later, rfl, hsilent, hunread, rfl⟩ :=
      List.filterMap_eq_cons_iff.mp hrest
    refine .inl ⟨earlier ++ silent, failure, later, by simp, hunread, ?_, ?_⟩
    · intro other hother point hpoint
      rcases List.mem_append.mp hother with hother | hother
      · exact hbefore point (List.mem_filterMap.mpr ⟨other, hother, hpoint⟩)
      · rw [hsilent other hother] at hpoint
        cases hpoint
    · intro other hother point hpoint
      exact hafter point (List.mem_filterMap.mpr ⟨other, hother, hpoint⟩)

/-- A failure that says of some failures on a text what they say together. -/
structure Summarizes (summary : Failure) (text : Text) (failures : List Failure) : Prop where
  message : summary.message = "No parser matched in oneOf."
  nodup : summary.expected.Nodup
  mem_expected : ∀ item, item ∈ summary.expected ↔ ∃ failure ∈ failures, item ∈ failure.expected
  ordered : summary.expected.Pairwise fun a b =>
    (failures.flatMap (·.expected)).idxOf a < (failures.flatMap (·.expected)).idxOf b
  remaining : ∃ unread, summary.remaining = some unread ∧ IsFurthest text failures unread

theorem summarizes_merge (text : Text) (failures : List Failure) :
    (merge text failures).Summarizes text failures := by
  have hordered := pairwise_idxOf_eraseDups (failures.flatMap (·.expected))
  exact {
    message := rfl
    nodup := hordered.imp fun hlt heq => by simp [heq] at hlt
    mem_expected := fun item => by rw [merge, List.mem_eraseDups, List.mem_flatMap]
    ordered := hordered
    remaining := ⟨_, rfl, isFurthest_furthest text failures⟩ }

/-- The failure points at an end of the text or nowhere. -/
def PointsWithin (failure : Failure) (text : Text) : Prop :=
  ∀ unread, failure.remaining = some unread → unread <:+ text

/-- Failures within a text may be merged in stages. -/
theorem merge_staged {text : Text} {before inner after : List Failure}
    (h : ∀ failure ∈ before ++ inner ++ after, failure.PointsWithin text) :
    merge text (before ++ merge text inner :: after) = merge text (before ++ inner ++ after) := by
  have hpoints : ∀ point ∈ (before ++ inner ++ after).filterMap (·.remaining), point <:+ text := by
    intro point hpoint
    obtain ⟨failure, hmem, hremaining⟩ := List.mem_filterMap.mp hpoint
    exact h failure hmem point hremaining
  rw [List.filterMap_append, List.filterMap_append] at hpoints
  have hinner :
      (before.flatMap (·.expected) ++ (inner.flatMap (·.expected)).eraseDups).eraseDups =
        (before.flatMap (·.expected) ++ inner.flatMap (·.expected)).eraseDups :=
    eraseDups_append_eraseDups _ _
  have hexpected := eraseDups_append_congr hinner (after.flatMap (·.expected))
  have hfurthest := furthest_staged hpoints
  rw [furthest, furthest, furthest] at hfurthest
  simp only [merge, List.flatMap_append, List.flatMap_cons, List.append_assoc,
    List.filterMap_append, List.filterMap_cons] at hexpected hfurthest ⊢
  rw [hexpected, hfurthest]

end Reckoner.Failure

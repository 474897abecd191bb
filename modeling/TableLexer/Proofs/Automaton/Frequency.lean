import Mathlib.Data.List.Induction
import TableLexer.Automaton.Packing

/-! The most frequent value of a row. Of two different counts one is always the more common, so the
counts have one greatest entry, and it does not matter in which order they are looked at or which of
several equal entries a search for the greatest would keep. -/

set_option autoImplicit false

namespace TableLexer

theorem moreCommon_iff {first second : Int16 × Nat} :
    moreCommon first second ↔ second.2 < first.2 ∨ second.2 = first.2 ∧ first.1 < second.1 :=
  decide_eq_true_iff

theorem not_moreCommon_self (entry : Int16 × Nat) : ¬ moreCommon entry entry := by
  rw [moreCommon_iff, Int16.lt_iff_toInt_lt]
  omega

theorem not_moreCommon_of_moreCommon {first second : Int16 × Nat}
    (gt : moreCommon first second) : ¬ moreCommon second first := by
  rw [moreCommon_iff, Int16.lt_iff_toInt_lt] at *
  omega

theorem not_moreCommon_trans {first second third : Int16 × Nat} (le : ¬ moreCommon first second)
    (le' : ¬ moreCommon second third) : ¬ moreCommon first third := by
  rw [moreCommon_iff, Int16.lt_iff_toInt_lt] at *
  omega

/-- Entries of which neither is more common are the same, for the values decide between them. -/
theorem eq_of_not_moreCommon {first second : Int16 × Nat} (le : ¬ moreCommon first second)
    (ge : ¬ moreCommon second first) : first = second := by
  rw [moreCommon_iff, Int16.lt_iff_toInt_lt] at le ge
  refine Prod.ext (Int16.toInt_inj.mp ?_) ?_
  · omega
  · omega

structure Top (counts : List (Int16 × Nat)) (entry : Int16 × Nat) : Prop where
  mem : entry ∈ counts
  unbeaten : ∀ other ∈ counts, ¬ moreCommon other entry

theorem Top.unique {counts : List (Int16 × Nat)} {first second : Int16 × Nat}
    (top : Top counts first) (top' : Top counts second) : first = second :=
  eq_of_not_moreCommon (top'.unbeaten first top.mem) (top.unbeaten second top'.mem)

theorem Top.perm {counts more : List (Int16 × Nat)} {entry : Int16 × Nat}
    (top : Top counts entry) (same : counts.Perm more) : Top more entry where
  mem := same.mem_iff.mp top.mem
  unbeaten := fun other member => top.unbeaten other (same.mem_iff.mpr member)

theorem Top.cons {counts : List (Int16 × Nat)} {held other entry : Int16 × Nat}
    (top : Top (held :: counts) entry) (le : ¬ moreCommon other held) :
    Top (other :: held :: counts) entry where
  mem := List.mem_cons_of_mem other top.mem
  unbeaten := by
    intro another member
    rcases List.mem_cons.mp member with rfl | member
    · exact not_moreCommon_trans le (top.unbeaten held List.mem_cons_self)
    · exact top.unbeaten another member

/-- Keeping one of two entries that the other does not beat, again and again, ends at the top. -/
theorem foldl_top {keep : Int16 × Nat → Int16 × Nat → Int16 × Nat}
    (fair : ∀ held next, keep held next = held ∧ ¬ moreCommon next held ∨
      keep held next = next ∧ ¬ moreCommon held next)
    (first : Int16 × Nat) (rest : List (Int16 × Nat)) :
    Top (first :: rest) (rest.foldl keep first) := by
  induction rest generalizing first with
  | nil =>
    refine ⟨List.mem_cons_self, ?_⟩
    intro other member
    rw [List.mem_singleton] at member
    exact member ▸ not_moreCommon_self first
  | cons next rest ih =>
    rw [List.foldl_cons]
    rcases fair first next with ⟨kept, le⟩ | ⟨kept, le⟩
    · rw [kept]
      exact ((ih first).cons le).perm (.swap first next rest)
    · rw [kept]
      exact (ih next).cons le

def commoner (held next : Int16 × Nat) : Int16 × Nat :=
  if moreCommon next held then next else held

theorem leader_cons (first : Int16 × Nat) (rest : List (Int16 × Nat)) :
    leader (first :: rest) = some (rest.foldl commoner first).1 := by
  unfold leader
  rw [List.foldl_cons]
  induction rest generalizing first with
  | nil => rfl
  | cons next rest ih =>
    rw [List.foldl_cons, List.foldl_cons, ← ih]
    rw [commoner, apply_ite some]

theorem commoner_top (first : Int16 × Nat) (rest : List (Int16 × Nat)) :
    Top (first :: rest) (rest.foldl commoner first) := by
  refine foldl_top ?_ first rest
  intro held next
  unfold commoner
  split
  · rename_i gt
    exact .inr ⟨rfl, not_moreCommon_of_moreCommon gt⟩
  · rename_i le
    exact .inl ⟨rfl, le⟩

theorem leader_top {counts : List (Int16 × Nat)} {entry : Int16 × Nat} (top : Top counts entry) :
    leader counts = some entry.1 := by
  cases counts with
  | nil => cases top.mem
  | cons first rest => rw [leader_cons, (commoner_top first rest).unique top]

/-- The greatest of the items; of several that compare as equal, the last. -/
def lastGreatest {α : Type} (order : α → α → Ordering) : List α → Option α
  | [] => none
  | first :: rest =>
    some (rest.foldl (fun held next => if order held next = .gt then held else next) first)

def byCount (first second : Int16 × Nat) : Ordering :=
  (compare first.2 second.2).then (compare second.1 first.1)

theorem byCount_eq_gt_iff {first second : Int16 × Nat} :
    byCount first second = .gt ↔ moreCommon first second := by
  rw [byCount, moreCommon_iff, Ordering.then_eq_gt, Std.compare_eq_gt, Std.compare_eq_gt,
    Std.compare_eq_iff_eq, eq_comm]

theorem lastGreatest_top {counts : List (Int16 × Nat)} {entry : Int16 × Nat}
    (top : Top counts entry) : lastGreatest byCount counts = some entry := by
  cases counts with
  | nil => cases top.mem
  | cons first rest =>
    have found : Top (first :: rest)
        (rest.foldl (fun held next => if byCount held next = .gt then held else next) first) := by
      refine foldl_top ?_ first rest
      intro held next
      split
      · rename_i gt
        exact .inl ⟨rfl, not_moreCommon_of_moreCommon (byCount_eq_gt_iff.mp gt)⟩
      · rename_i le
        exact .inr ⟨rfl, fun gt => le (byCount_eq_gt_iff.mpr gt)⟩
    rw [lastGreatest, found.unique top]

/-- The counts of the values that occur, one entry for each, listed in any order. -/
structure Counts (values : List Int16) (counts : List (Int16 × Nat)) : Prop where
  distinct : (counts.map Prod.fst).Nodup
  mem_iff : ∀ entry, entry ∈ counts ↔ entry.1 ∈ values ∧ entry.2 = values.count entry.1

theorem mem_keys_countOne {counts : List (Int16 × Nat)} {value other : Int16} :
    other ∈ (countOne value counts).map Prod.fst ↔ other = value ∨ other ∈ counts.map Prod.fst := by
  induction counts with
  | nil => simp [countOne]
  | cons head rest ih =>
    rw [countOne]
    split
    · rename_i same
      simp [← same]
    · rw [List.map_cons, List.map_cons, List.mem_cons, List.mem_cons, ih, or_left_comm]

theorem countOne_distinct {counts : List (Int16 × Nat)} {value : Int16}
    (distinct : (counts.map Prod.fst).Nodup) :
    ((countOne value counts).map Prod.fst).Nodup := by
  induction counts with
  | nil => simp [countOne]
  | cons head rest ih =>
    rw [countOne]
    split
    · exact distinct
    · rename_i other
      rw [List.map_cons, List.nodup_cons] at distinct ⊢
      refine ⟨?_, ih distinct.2⟩
      rw [mem_keys_countOne]
      rintro (same | member)
      · exact other same
      · exact distinct.1 member

theorem lookup_cons (seen : Int16) (count : Nat) (rest : List (Int16 × Nat)) (value : Int16) :
    List.lookup value ((seen, count) :: rest) =
      if value = seen then some count else rest.lookup value := by
  rw [List.lookup_cons]
  by_cases same : value = seen
  · rw [if_pos same, beq_iff_eq.mpr same]
  · rw [if_neg same, beq_false_of_ne same]

theorem lookup_countOne (counts : List (Int16 × Nat)) (value other : Int16) :
    (countOne value counts).lookup other =
      if other = value then some ((counts.lookup value).getD 0 + 1) else counts.lookup other := by
  induction counts with
  | nil => rw [countOne, lookup_cons, List.lookup_nil, List.lookup_nil, Option.getD_none]
  | cons head rest ih =>
    obtain ⟨seen, count⟩ := head
    rw [countOne, lookup_cons, lookup_cons]
    by_cases found : seen = value
    · rw [if_pos found, lookup_cons, found, if_pos rfl, Option.getD_some]
      split
      · rfl
      · rfl
    · rw [if_neg found, if_neg (Ne.symm found), lookup_cons, ih]
      by_cases same : other = seen
      · rw [if_pos same, if_pos same, if_neg (same ▸ found)]
      · rw [if_neg same, if_neg same]

theorem mem_iff_lookup {counts : List (Int16 × Nat)} (distinct : (counts.map Prod.fst).Nodup)
    {value : Int16} {count : Nat} : (value, count) ∈ counts ↔ counts.lookup value = some count := by
  induction counts with
  | nil => simp
  | cons head rest ih =>
    obtain ⟨seen, held⟩ := head
    rw [List.map_cons, List.nodup_cons] at distinct
    rw [List.mem_cons, ih distinct.2, lookup_cons, Prod.mk.injEq]
    by_cases same : value = seen
    · subst same
      have absent : rest.lookup value ≠ some count := by
        rw [ne_eq, ← ih distinct.2]
        exact fun member => distinct.1 (List.mem_map.mpr ⟨(value, count), member, rfl⟩)
      simp [absent, eq_comm]
    · simp [same]

theorem tally_snoc (values : List Int16) (value : Int16) :
    tally (values ++ [value]) = countOne value (tally values) := by
  simp [tally]

theorem lookup_tally (values : List Int16) (value : Int16) :
    (tally values).lookup value =
      if value ∈ values then some (values.count value) else none := by
  induction values using List.reverseRecOn with
  | nil => rfl
  | append_singleton values last ih =>
    rw [tally_snoc, lookup_countOne]
    by_cases same : value = last
    · subst same
      by_cases member : value ∈ values
      · simp [ih, member]
      · simp [ih, member, List.count_eq_zero_of_not_mem member]
    · simp [ih, same, List.count_append, Ne.symm same]

theorem tally_counts (values : List Int16) : Counts values (tally values) := by
  have distinct : ((tally values).map Prod.fst).Nodup := by
    induction values using List.reverseRecOn with
    | nil => exact List.nodup_nil
    | append_singleton values last ih =>
      rw [tally_snoc]
      exact countOne_distinct ih
  refine ⟨distinct, ?_⟩
  rintro ⟨value, count⟩
  rw [mem_iff_lookup distinct, lookup_tally]
  simp [eq_comm]

structure Mode (values : List Int16) (value : Int16) : Prop where
  occurs : value ∈ values
  most : ∀ other ∈ values, values.count other ≤ values.count value
  least : ∀ other ∈ values, values.count other = values.count value → value ≤ other

theorem Mode.unique {values : List Int16} {first second : Int16} (mode : Mode values first)
    (mode' : Mode values second) : first = second := by
  have same : values.count first = values.count second :=
    Nat.le_antisymm (mode'.most first mode.occurs) (mode.most second mode'.occurs)
  exact Int16.le_antisymm (mode.least second mode'.occurs same.symm)
    (mode'.least first mode.occurs same)

namespace Counts

variable {values more : List Int16} {counts : List (Int16 × Nat)}

theorem perm (counted : Counts values counts) (same : values.Perm more) : Counts more counts where
  distinct := counted.distinct
  mem_iff := by
    intro entry
    rw [counted.mem_iff, same.mem_iff, same.count_eq]

theorem reorder (counted : Counts values counts) {other : List (Int16 × Nat)}
    (same : counts.Perm other) : Counts values other where
  distinct := (same.map Prod.fst).nodup_iff.mp counted.distinct
  mem_iff := by
    intro entry
    rw [← same.mem_iff, counted.mem_iff]

theorem eq_nil_iff (counted : Counts values counts) : counts = [] ↔ values = [] := by
  rw [List.eq_nil_iff_forall_not_mem, List.eq_nil_iff_forall_not_mem]
  constructor
  · intro none value member
    exact none (value, values.count value) ((counted.mem_iff _).mpr ⟨member, rfl⟩)
  · intro none entry member
    exact none entry.1 ((counted.mem_iff entry).mp member).1

theorem mode_of_top (counted : Counts values counts) {entry : Int16 × Nat}
    (top : Top counts entry) : Mode values entry.1 := by
  obtain ⟨occurs, count⟩ := (counted.mem_iff entry).mp top.mem
  have beaten : ∀ other ∈ values, ¬ moreCommon (other, values.count other) entry :=
    fun other member => top.unbeaten _ ((counted.mem_iff _).mpr ⟨member, rfl⟩)
  refine ⟨occurs, ?_, ?_⟩
  · intro other member
    have le := beaten other member
    rw [moreCommon_iff, count] at le
    omega
  · intro other member same
    have le := beaten other member
    rw [moreCommon_iff, count] at le
    exact Int16.not_lt.mp fun lt => le (.inr ⟨same.symm, lt⟩)

theorem leader_eq_some_iff (counted : Counts values counts) {value : Int16} :
    leader counts = some value ↔ Mode values value := by
  cases counts with
  | nil =>
    have nothing : values = [] := counted.eq_nil_iff.mp rfl
    constructor
    · intro found
      cases found
    · intro mode
      exact absurd mode.occurs (by simp [nothing])
  | cons first rest =>
    have mode := counted.mode_of_top (commoner_top first rest)
    rw [leader_cons, Option.some.injEq]
    constructor
    · rintro rfl
      exact mode
    · exact mode.unique

theorem leader_eq_none_iff (counted : Counts values counts) :
    leader counts = none ↔ values = [] := by
  rw [← counted.eq_nil_iff]
  cases counts with
  | nil => exact ⟨fun _ => rfl, fun _ => rfl⟩
  | cons first rest => simp [leader_cons]

theorem leader_congr (counted : Counts values counts) {other : List (Int16 × Nat)}
    (counted' : Counts values other) : leader counts = leader other :=
  Option.ext fun _ => counted.leader_eq_some_iff.trans counted'.leader_eq_some_iff.symm

end Counts

theorem lastGreatest_byCount (counts : List (Int16 × Nat)) :
    (lastGreatest byCount counts).map Prod.fst = leader counts := by
  cases counts with
  | nil => rfl
  | cons first rest =>
    have top := commoner_top first rest
    rw [lastGreatest_top top, leader_top top, Option.map_some]

/-- The most frequent value does not depend on the order of the values or of their counts, nor on
which of several equal counts a search for the greatest keeps: it is the smallest of the values
that occur most often, and only an empty sequence has none. -/
theorem mostCommon_stable {values more : List Int16} {counts : List (Int16 × Nat)}
    (same : more.Perm values) (counted : Counts more counts) :
    (leader counts = mostCommon values ∧ mostCommon more = mostCommon values ∧
      (lastGreatest byCount counts).map Prod.fst = mostCommon values) ∧
    (∀ value, mostCommon values = some value ↔ Mode values value) ∧
    (mostCommon values = none ↔ values = []) := by
  have tallied := tally_counts values
  have found : leader counts = mostCommon values := (counted.perm same).leader_congr tallied
  refine ⟨⟨found, ?_, ?_⟩, ?_, ?_⟩
  · exact ((tally_counts more).perm same).leader_congr tallied
  · rw [lastGreatest_byCount, found]
  · exact fun value => tallied.leader_eq_some_iff
  · exact tallied.leader_eq_none_iff

/-- The values 1 and 3 occur twice; their counts are looked at from the last one on. -/
theorem mostCommon_twice :
    [2, 1, 3, 1, 3].Perm ([3, 1, 3, 1, 2] : List Int16) ∧
      Counts [2, 1, 3, 1, 3] [(3, 2), (1, 2), (2, 1)] ∧
      (lastGreatest byCount [(3, 2), (1, 2), (2, 1)]).map Prod.fst = mostCommon [3, 1, 3, 1, 2] ∧
      mostCommon [3, 1, 3, 1, 2] = some 1 := by
  have same : [2, 1, 3, 1, 3].Perm ([3, 1, 3, 1, 2] : List Int16) := by decide
  have counted : Counts [2, 1, 3, 1, 3] [(3, 2), (1, 2), (2, 1)] :=
    (tally_counts [2, 1, 3, 1, 3]).reorder (by decide)
  obtain ⟨⟨_, _, found⟩, _⟩ := mostCommon_stable same counted
  exact ⟨same, counted, found, rfl⟩

end TableLexer

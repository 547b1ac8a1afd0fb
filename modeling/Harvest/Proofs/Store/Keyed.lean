import Mathlib.Data.List.Basic
import Mathlib.Data.List.Nodup
import Mathlib.Data.List.Perm.Basic
import Mathlib.Data.List.Sort

/-! Lists of records that go by distinct keys. A change that leaves the keys can be made before
or after records are looked for, picked and sorted.
-/

namespace Harvest.Keyed

variable {α β κ : Type} {key : α → κ} {records : List α} {record : α} {change : α → α}
  {test : α → Bool} {upTo : α → α → Bool}

/-- A record is found by its key, for no other record has it. -/
theorem find?_of_mem [BEq κ] [LawfulBEq κ] (distinct : (records.map key).Nodup)
    (member : record ∈ records)
    : records.find? (key · == key record) = some record := by
  obtain ⟨found, here⟩ : ∃ found, records.find? (key · == key record) = some found := by
    refine Option.isSome_iff_exists.mp (List.find?_isSome.mpr ⟨record, member, ?_⟩)
    exact beq_self_eq_true (key record)
  have same : key found = key record := by simpa using List.find?_some here
  rw [here, List.inj_on_of_nodup_map distinct (List.mem_of_find?_eq_some here) member same]

/-- What is found by a key after a change is what was found before, changed. -/
theorem find?_map_of_key [BEq κ] (keeps : ∀ record, key (change record) = key record) (wanted : κ)
    (records : List α)
    : (records.map change).find? (key · == wanted)
      = (records.find? (key · == wanted)).map change := by
  rw [List.find?_map]
  congr 2
  funext record
  exact congrArg (· == wanted) (keeps record)

/-- Picking some records of a list that was changed, when the change leaves who is picked. -/
theorem filter_map_of_test (keeps : ∀ record ∈ records, test (change record) = test record)
    : (records.map change).filter test = (records.filter test).map change := by
  rw [List.filter_map]
  congr 1
  exact List.filter_congr keeps

/-- A change that leaves all picked records leaves what is picked. -/
theorem filter_map_of_apart (apart : ∀ record ∈ records, test (change record) = test record)
    (leaves : ∀ record ∈ records, test record → change record = record)
    : (records.map change).filter test = records.filter test := by
  rw [filter_map_of_test apart]
  refine (List.map_congr_left fun record member => ?_).trans (List.map_id _)
  exact leaves record (List.mem_of_mem_filter member) (List.of_mem_filter member)

/-- Sorting a list that was changed, when the change leaves the places. -/
theorem mergeSort_map_of_upTo
    (keeps
      : ∀ one ∈ records, ∀ two ∈ records, upTo one two = upTo (change one) (change two))
    : (records.map change).mergeSort upTo = (records.mergeSort upTo).map change :=
  (List.map_mergeSort keeps).symm

/-- Deciding between equal places by ranks that rise through the list is keeping their order, for a
record has its place among the numbered ones by its rank.
-/
theorem mergeSort_of_ranks {rank : α → Nat} (rising : records.Pairwise (rank · < rank ·))
    {ranked : α → α → Bool}
    (decides
      : ∀ one ∈ records, ∀ two ∈ records,
          ranked one two
            = if upTo one two then if upTo two one then decide (rank one ≤ rank two) else true
              else false)
    : records.mergeSort ranked = records.mergeSort upTo := by
  have numbered : ∀ one ∈ records.zipIdx, ∀ two ∈ records.zipIdx,
      List.zipIdxLE upTo one two = ranked one.1 two.1 := by
    rintro ⟨one, i⟩ here ⟨two, j⟩ there
    have at_i : records[i]? = some one := List.mem_zipIdx_iff_getElem?.mp here
    have at_j : records[j]? = some two := List.mem_zipIdx_iff_getElem?.mp there
    obtain ⟨iLt, rfl⟩ := List.getElem?_eq_some_iff.mp at_i
    obtain ⟨jLt, rfl⟩ := List.getElem?_eq_some_iff.mp at_j
    have places : decide (i ≤ j) = decide (rank records[i] ≤ rank records[j]) := by
      rw [List.pairwise_iff_getElem] at rising
      refine decide_eq_decide.mpr ?_
      rcases Nat.lt_trichotomy i j with less | same | more
      · have := rising i j iLt jLt less
        omega
      · subst same
        simp
      · have := rising j i jLt iLt more
        omega
    rw [decides _ (List.getElem_mem iLt) _ (List.getElem_mem jLt), List.zipIdxLE, places]
  calc records.mergeSort ranked
      = (records.zipIdx.map Prod.fst).mergeSort ranked := by rw [List.zipIdx_map_fst]
    _ = (records.zipIdx.mergeSort (List.zipIdxLE upTo)).map Prod.fst :=
        (List.map_mergeSort numbered).symm
    _ = records.mergeSort upTo := List.mergeSort_zipIdx

/-- Lists with the same records, each of them once, are the same when they are sorted by an order
that tells records with different keys apart.
-/
theorem mergeSort_of_mem_iff {others : List α} (distinct : (records.map key).Nodup)
    (distinct' : (others.map key).Nodup) (same : ∀ record, record ∈ records ↔ record ∈ others)
    (trans : ∀ one two three, upTo one two → upTo two three → upTo one three)
    (total : ∀ one two, upTo one two || upTo two one)
    (tells : ∀ one two, upTo one two → upTo two one → key one = key two)
    : records.mergeSort upTo = others.mergeSort upTo := by
  have perm : records.Perm others :=
    (List.perm_ext_iff_of_nodup (.of_map _ distinct) (.of_map _ distinct')).mpr same
  refine List.Perm.eq_of_pairwise ?_ (List.pairwise_mergeSort trans total records)
    (List.pairwise_mergeSort trans total others)
    ((List.mergeSort_perm ..).trans (perm.trans (List.mergeSort_perm ..).symm))
  intro one two here there first second
  rw [List.mem_mergeSort] at here there
  exact List.inj_on_of_nodup_map distinct here ((same two).mpr there) (tells one two first second)

end Harvest.Keyed

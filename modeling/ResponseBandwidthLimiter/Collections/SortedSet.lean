import Mathlib.Data.List.Sort
import Mathlib.Data.Prod.Lex
import Mathlib.Data.List.Nodup

namespace collections

/-- Members with scores, in the order of score and then member. Every member
    occurs once. -/
structure SortedSet (Member Score : Type*) [LinearOrder Member] [LinearOrder Score] where
  items : List (Score ×ₗ Member)
  sorted : items.Pairwise (· ≤ ·)
  nodup_members : (items.map (fun item => (ofLex item).2)).Nodup

namespace SortedSet

variable {Member Score : Type*} [LinearOrder Member] [LinearOrder Score]

def empty : SortedSet Member Score := ⟨[], List.Pairwise.nil, List.nodup_nil⟩

def members (self : SortedSet Member Score) : List Member := self.items.map (fun item => (ofLex item).2)

/-- The scores by rank, lowest first. -/
def scores (self : SortedSet Member Score) : List Score := self.items.map (fun item => (ofLex item).1)

def zcard (self : SortedSet Member Score) : Nat := self.items.length

/-- The score at a rank, if there is one. -/
def zrange_score (self : SortedSet Member Score) (rank : Nat) : Option Score := self.scores[rank]?

/-- Removal of every score up to a bound. -/
def zremrangebyscore (self : SortedSet Member Score) (bound : Score) : SortedSet Member Score where
  items := self.items.filter (fun item => bound < (ofLex item).1)
  sorted := self.sorted.sublist List.filter_sublist
  nodup_members := (List.filter_sublist.map _).nodup self.nodup_members

/-- Adding a member, or moving it to a new score. -/
def zadd (self : SortedSet Member Score) (score : Score) (member : Member) : SortedSet Member Score where
  items := (self.items.filter (fun item => (ofLex item).2 ≠ member)).orderedInsert (· ≤ ·) (toLex (score, member))
  sorted := (self.sorted.sublist List.filter_sublist).orderedInsert _ _
  nodup_members := by
    have hperm := (List.perm_orderedInsert (· ≤ ·) (toLex (score, member))
      (self.items.filter (fun item => (ofLex item).2 ≠ member))).map (fun item => (ofLex item).2)
    rw [hperm.nodup_iff, List.map_cons, List.nodup_cons]
    refine ⟨?_, (List.filter_sublist.map _).nodup self.nodup_members⟩
    intro hmem
    obtain ⟨item, hitem, hsame⟩ := List.mem_map.mp hmem
    exact of_decide_eq_true (List.mem_filter.mp hitem).2 hsame

@[simp] theorem scores_empty : (empty : SortedSet Member Score).scores = [] := rfl

@[simp] theorem members_empty : (empty : SortedSet Member Score).members = [] := rfl

theorem zcard_eq_length (self : SortedSet Member Score) : self.zcard = self.scores.length := by
  simp [zcard, scores]

theorem scores_sorted (self : SortedSet Member Score) : self.scores.Pairwise (· ≤ ·) :=
  List.pairwise_map.mpr (self.sorted.imp (fun hle => Prod.Lex.monotone_fst _ _ hle))

theorem scores_zremrangebyscore (self : SortedSet Member Score) (bound : Score) :
    (self.zremrangebyscore bound).scores = self.scores.filter (fun score => bound < score) := by
  simp only [scores, zremrangebyscore, List.filter_map]
  rfl

theorem members_zremrangebyscore_subset (self : SortedSet Member Score) (bound : Score) :
    (self.zremrangebyscore bound).members ⊆ self.members :=
  (List.filter_sublist.map _).subset

/-- A new member whose score is no lower than the others takes the last rank;
    among equal scores the order of the members does not show in the scores. -/
theorem scores_zadd_of_le {self : SortedSet Member Score} {score : Score} {member : Member}
    (hnew : member ∉ self.members) (hlast : ∀ other ∈ self.scores, other ≤ score) :
    (self.zadd score member).scores = self.scores ++ [score] := by
  have hall : self.items.filter (fun item => (ofLex item).2 ≠ member) = self.items := by
    rw [List.filter_eq_self]
    intro item hitem
    rw [decide_eq_true_eq]
    exact fun hsame => hnew (List.mem_map.mpr ⟨item, hitem, hsame⟩)
  have hperm : (self.zadd score member).scores.Perm (self.scores ++ [score]) := by
    refine ((List.perm_orderedInsert (· ≤ ·) (toLex (score, member)) _).map (fun item => (ofLex item).1)).trans ?_
    rw [hall]
    exact (List.perm_append_singleton score self.scores).symm
  apply hperm.eq_of_pairwise' (scores_sorted _)
  refine List.pairwise_append.mpr ⟨self.scores_sorted, List.pairwise_singleton _ _, ?_⟩
  intro other hother last hmem
  rw [List.mem_singleton] at hmem
  exact hmem ▸ hlast other hother

theorem members_zadd_subset (self : SortedSet Member Score) (score : Score) (member : Member) :
    (self.zadd score member).members ⊆ member :: self.members := by
  intro other hother
  have hperm := (List.perm_orderedInsert (· ≤ ·) (toLex (score, member))
    (self.items.filter (fun item => (ofLex item).2 ≠ member))).map (fun item => (ofLex item).2)
  have hmem := hperm.subset hother
  rw [List.map_cons, List.mem_cons] at hmem
  rcases hmem with rfl | hmem
  · exact List.mem_cons_self
  · exact List.mem_cons_of_mem _ ((List.filter_sublist.map _).subset hmem)

end SortedSet

end collections

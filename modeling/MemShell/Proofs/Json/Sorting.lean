import MemShell.Json.Writer
import MemShell.Proofs.Map.Assoc
import Mathlib.Data.List.Nodup

/-!
# Sorting by name

Sorting named values by their names keeps every one of them. If the names are distinct, each stands
strictly before those after it in the order of code points.
-/

namespace MemShell

/-- Texts that do not come after others do not come after those beyond them. -/
theorem Text.notAfter_trans (a b c : Text) (hab : notAfter a b = true) (hbc : notAfter b c = true) :
    notAfter a c = true := by
  rw [notAfter, decide_eq_true_eq] at hab hbc ⊢
  exact List.le_trans hab hbc

/-- Of two texts one does not come after the other. -/
theorem Text.notAfter_total (a b : Text) : (notAfter a b || notAfter b a) = true := by
  rw [notAfter, notAfter, Bool.or_eq_true, decide_eq_true_eq, decide_eq_true_eq]
  exact List.le_total a b

namespace Json

variable {α : Type} {fields : List (Text × α)}

@[simp] theorem sortByName_nil : sortByName ([] : List (Text × α)) = [] := List.mergeSort_nil

/-- Fields that are in order stay as they are. -/
theorem sortByName_of_pairwise (h : fields.Pairwise fun a b => Text.notAfter a.1 b.1 = true) :
    sortByName fields = fields :=
  List.mergeSort_of_pairwise h

/-- Sorted fields are in order. -/
theorem notAfter_sortByName (fields : List (Text × α)) :
    (sortByName fields).Pairwise fun a b => Text.notAfter a.1 b.1 = true :=
  List.pairwise_mergeSort (fun a b c => Text.notAfter_trans a.1 b.1 c.1)
    (fun a b => Text.notAfter_total a.1 b.1) fields

/-- Sorted fields stay as they are. -/
theorem sortByName_sortByName (fields : List (Text × α)) :
    sortByName (sortByName fields) = sortByName fields :=
  sortByName_of_pairwise (notAfter_sortByName fields)

/-- Sorting rearranges the fields. -/
theorem sortByName_perm (fields : List (Text × α)) : (sortByName fields).Perm fields :=
  List.mergeSort_perm fields _

/-- Sorting keeps every field. -/
theorem mem_sortByName {field : Text × α} : field ∈ sortByName fields ↔ field ∈ fields :=
  (sortByName_perm fields).mem_iff

/-- Sorting keeps names distinct. -/
theorem nodup_keys_sortByName :
    (Assoc.keys (sortByName fields)).Nodup ↔ (Assoc.keys fields).Nodup :=
  ((sortByName_perm fields).map Prod.fst).nodup_iff

/-- Sorted fields with distinct names stand in strictly increasing order. -/
theorem pairwise_sortByName (h : (Assoc.keys fields).Nodup) :
    (sortByName fields).Pairwise fun a b => a.1 < b.1 := by
  have hdistinct : (sortByName fields).Pairwise fun a b => a.1 ≠ b.1 :=
    List.pairwise_map.1 (nodup_keys_sortByName.2 h)
  refine ((notAfter_sortByName fields).and hdistinct).imp fun {a b} hab => ?_
  obtain ⟨hle, hne⟩ := hab
  rw [Text.notAfter, decide_eq_true_eq] at hle
  exact Decidable.byContradiction fun hlt => hne (List.le_antisymm hle hlt)

/-- Fields with distinct names are found after sorting as before. -/
theorem lookup_sortByName (h : (Assoc.keys fields).Nodup) (name : Text) :
    (sortByName fields).lookup name = fields.lookup name :=
  (Assoc.lookup_perm (sortByName_perm fields).symm h name).symm

/-- The order of fields with distinct names does not matter for sorting. -/
theorem sortByName_eq_of_perm {others : List (Text × α)} (h : fields.Perm others)
    (hnodup : (Assoc.keys fields).Nodup) : sortByName fields = sortByName others := by
  have hothers : (Assoc.keys others).Nodup := (h.map Prod.fst).nodup_iff.1 hnodup
  refine ((sortByName_perm fields).trans (h.trans (sortByName_perm others).symm)).eq_of_pairwise
    (fun a b _ _ hab hba => ?_) (pairwise_sortByName hnodup) (pairwise_sortByName hothers)
  exact absurd hba (List.lt_asymm hab)

/-- Fields with distinct names in which the same is found are the same after sorting. -/
theorem sortByName_congr {others : List (Text × α)} (h : (Assoc.keys fields).Nodup)
    (hothers : (Assoc.keys others).Nodup)
    (hlookup : ∀ name, fields.lookup name = others.lookup name) :
    sortByName fields = sortByName others := by
  refine sortByName_eq_of_perm ?_ h
  refine (List.perm_ext_iff_of_nodup h.of_map hothers.of_map).2 fun field => ?_
  obtain ⟨name, value⟩ := field
  rw [← Assoc.lookup_eq_some_iff h, ← Assoc.lookup_eq_some_iff hothers, hlookup]

/-- Fields are sorted before or after their values are changed. -/
theorem sortByName_map {β : Type} (change : Text × α → β) (fields : List (Text × α)) :
    sortByName (fields.map fun field => (field.1, change field)) =
      (sortByName fields).map fun field => (field.1, change field) := by
  rw [sortByName, sortByName, List.map_mergeSort]
  exact fun _ _ _ _ => rfl

end Json

end MemShell

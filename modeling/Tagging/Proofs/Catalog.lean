import Mathlib.Data.List.Induction
import Tagging.Catalog

/-!
# Catalogs as maps

A catalog is determined by what it files under each name, and it lists each name once, in order. Filing a
value changes what is found under its own name only.
-/

namespace Tagging.Catalog

variable {α : Type} {catalog : Catalog α}

/-! ## Looking up -/

theorem lookup_cons_eq_ite (name key : String) (value : α) (rest : List (String × α)) :
    ((key, value) :: rest).lookup name = if name = key then some value else rest.lookup name := by
  rw [List.lookup_cons]
  by_cases h : name = key
  · simp [h]
  · simp only [beq_eq_false_iff_ne.2 h, if_neg h]

/-- An entry put in changes what is found under its own `name` only. -/
theorem lookup_insertEntry (name other : String) (value : α) (entries : List (String × α)) :
    (insertEntry name value entries).lookup other =
      if other = name then some value else entries.lookup other := by
  fun_induction insertEntry name value entries with
  | case1 => exact lookup_cons_eq_ite other name value []
  | case2 key found rest hlt => exact lookup_cons_eq_ite other name value _
  | case3 key found rest heq =>
    obtain rfl := Std.compare_eq_iff_eq.1 heq
    simp only [lookup_cons_eq_ite]
    by_cases h : other = name <;> simp [h]
  | case4 key found rest hgt ih =>
    have hne : name ≠ key := by
      rintro rfl
      simp at hgt
    simp only [lookup_cons_eq_ite, ih]
    by_cases h : other = name
    · simp [h, hne]
    · simp [h]

theorem find?_insert (name other : String) (value : α) :
    (catalog.insert name value).find? other =
      if other = name then some value else catalog.find? other :=
  lookup_insertEntry name other value catalog.entries

/-- Of several `entries` under one name the last one counts. -/
theorem find?_ofList (entries : List (String × α)) (name : String) :
    (ofList entries).find? name = entries.reverse.lookup name := by
  unfold ofList
  induction entries using List.reverseRecOn with
  | nil => rfl
  | append_singleton entries entry ih =>
    rw [List.foldl_append, List.foldl_cons, List.foldl_nil, find?_insert, ih, List.reverse_append]
    exact (lookup_cons_eq_ite name entry.1 entry.2 _).symm

theorem mem_names_iff {name : String} : name ∈ catalog.names ↔ (catalog.find? name).isSome := by
  unfold names find?
  induction catalog.entries with
  | nil => simp
  | cons entry rest ih =>
    rw [List.map_cons, List.mem_cons, lookup_cons_eq_ite name entry.1 entry.2 rest, ih]
    by_cases h : name = entry.1 <;> simp [h]

/-! ## The order of the names -/

/-- Each name once, in order. -/
def Ordered (entries : List (String × α)) : Prop :=
  (entries.map Prod.fst).Pairwise fun a b => compare a b = .lt

theorem mem_map_insertEntry {name key : String} {value : α} {entries : List (String × α)}
    (h : key ∈ (insertEntry name value entries).map Prod.fst) :
    key = name ∨ key ∈ entries.map Prod.fst := by
  fun_induction insertEntry name value entries with
  | case1 => simpa using h
  | case2 other found rest hlt => simpa using h
  | case3 other found rest heq =>
    rcases List.mem_cons.1 h with h | h
    · exact .inl h
    · exact .inr (List.mem_cons_of_mem _ h)
  | case4 other found rest hgt ih =>
    rcases List.mem_cons.1 h with h | h
    · exact .inr (List.mem_cons.2 (.inl h))
    · exact (ih h).imp_right fun h => List.mem_cons_of_mem _ h

/-- An entry put in keeps the order of the names. -/
theorem Ordered.insertEntry {entries : List (String × α)} (h : Ordered entries) (name : String)
    (value : α) : Ordered (insertEntry name value entries) := by
  unfold Ordered at h ⊢
  fun_induction Catalog.insertEntry name value entries with
  | case1 => simp
  | case2 other found rest hlt =>
    have hother := (List.pairwise_cons.1 h).1
    refine List.pairwise_cons.2 ⟨fun key hkey => ?_, h⟩
    rcases List.mem_cons.1 hkey with rfl | hkey
    · exact hlt
    · exact Std.TransCmp.lt_trans hlt (hother key hkey)
  | case3 other found rest heq =>
    obtain rfl := Std.compare_eq_iff_eq.1 heq
    exact h
  | case4 other found rest hgt ih =>
    obtain ⟨hother, hrest⟩ := List.pairwise_cons.1 h
    refine List.pairwise_cons.2 ⟨fun key hkey => ?_, ih hrest⟩
    rcases mem_map_insertEntry hkey with rfl | hkey
    · exact Std.OrientedCmp.gt_iff_lt.1 hgt
    · exact hother key hkey

theorem ordered_ofList (entries : List (String × α)) : Ordered (ofList entries).entries := by
  unfold ofList
  induction entries using List.reverseRecOn with
  | nil => exact List.Pairwise.nil
  | append_singleton entries entry ih =>
    rw [List.foldl_append]
    exact ih.insertEntry entry.1 entry.2

/-- Where each name is listed once, everything listed is found. -/
theorem Ordered.lookup_eq_some {entries : List (String × α)} (h : Ordered entries) {name : String}
    {value : α} (hmem : (name, value) ∈ entries) : entries.lookup name = some value := by
  induction entries with
  | nil => cases hmem
  | cons entry rest ih =>
    obtain ⟨hfirst, hrest⟩ := List.pairwise_cons.1 h
    rw [lookup_cons_eq_ite name entry.1 entry.2 rest]
    rcases List.mem_cons.1 hmem with rfl | hmem
    · exact if_pos rfl
    · have hlt : compare entry.1 name = .lt := hfirst name (List.mem_map.2 ⟨_, hmem, rfl⟩)
      have hne : name ≠ entry.1 := by
        rintro rfl
        simp at hlt
      rw [if_neg hne, ih hrest hmem]

theorem mem_of_lookup_eq_some {entries : List (String × α)} {name : String} {value : α}
    (h : entries.lookup name = some value) : (name, value) ∈ entries := by
  obtain ⟨before, after, rfl, -⟩ := List.lookup_eq_some_iff.1 h
  simp

theorem Ordered.pairwise {entries : List (String × α)} (h : Ordered entries) :
    entries.Pairwise fun x y => compare x.1 y.1 = .lt :=
  List.pairwise_map.1 h

theorem Ordered.nodup {entries : List (String × α)} (h : Ordered entries) : entries.Nodup := by
  refine h.pairwise.imp fun hxy heq => ?_
  simp [heq] at hxy

/-- What is found under each name settles the entries and their order. Both lists have the same entries, and there
is only one way to put these in order. -/
theorem Ordered.eq_of_lookup_eq {a b : List (String × α)} (ha : Ordered a) (hb : Ordered b)
    (h : ∀ name, a.lookup name = b.lookup name) : a = b := by
  have hmem : ∀ entry, entry ∈ a ↔ entry ∈ b := by
    rintro ⟨name, value⟩
    constructor
    · intro hentry
      exact mem_of_lookup_eq_some ((h name).symm.trans (ha.lookup_eq_some hentry))
    · intro hentry
      exact mem_of_lookup_eq_some ((h name).trans (hb.lookup_eq_some hentry))
  refine List.Perm.eq_of_pairwise (fun x y _ _ hxy hyx => ?_) ha.pairwise hb.pairwise
    ((List.perm_ext_iff_of_nodup ha.nodup hb.nodup).2 hmem)
  exact absurd (Std.TransCmp.lt_trans hxy hyx) (by simp)

/-! ## Entries of distinct names -/

/-- An entry under a new `name` is added to the `entries`. -/
theorem insertEntry_perm {name : String} {entries : List (String × α)}
    (h : name ∉ entries.map Prod.fst) (value : α) :
    (insertEntry name value entries).Perm ((name, value) :: entries) := by
  fun_induction insertEntry name value entries with
  | case1 | case2 => exact .refl _
  | case3 other found rest heq =>
    obtain rfl := Std.compare_eq_iff_eq.1 heq
    simp at h
  | case4 other found rest hgt ih =>
    rw [List.map_cons, List.mem_cons, not_or] at h
    exact ((ih h.2).cons _).trans (.swap _ _ _)

/-- Filed under distinct names, no value is lost. -/
theorem ofList_perm {entries : List (String × α)} (h : (entries.map Prod.fst).Nodup) :
    (ofList entries).entries.Perm entries := by
  induction entries using List.reverseRecOn with
  | nil => exact .refl _
  | append_singleton entries entry ih =>
    rw [((List.perm_append_singleton entry entries).map Prod.fst).nodup_iff] at h
    obtain ⟨hentry, hnodup⟩ := List.nodup_cons.1 h
    have hperm := ih hnodup
    have hnew : entry.1 ∉ (ofList entries).entries.map Prod.fst := by
      rwa [(hperm.map Prod.fst).mem_iff]
    have hinsert := (insertEntry_perm hnew entry.2).trans (hperm.cons entry)
    unfold ofList at hinsert ⊢
    rw [List.foldl_append]
    exact hinsert.trans (List.perm_append_singleton entry entries).symm

end Tagging.Catalog

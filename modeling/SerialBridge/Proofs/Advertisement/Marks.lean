import Mathlib.Data.List.Induction
import SerialBridge.Advertisement

/-!
# What is kept of the structures

A decoder keeps which names and lists it has seen, and the last structure of each kind that carries
fields. The kinds exclude each other, so the order in which a decoder tests for them does not matter.
-/

namespace SerialBridge.Advertisement

/-- The last structure of a kind. -/
def last? (kind : Bytes → Bool) (structures : List Bytes) : Option Bytes :=
  (structures.filter kind).getLast?

theorem last?_concat (kind : Bytes → Bool) (structures : List Bytes) (s : Bytes) :
    last? kind (structures ++ [s]) = if kind s then some s else last? kind structures := by
  rw [last?, List.filter_append]
  by_cases hs : kind s = true
  · rw [if_pos hs, List.filter_cons_of_pos hs, List.filter_nil, List.getLast?_concat]
  · rw [if_neg hs, List.filter_cons_of_neg hs, List.filter_nil, List.append_nil, last?]

theorem last?_eq_some_iff {kind : Bytes → Bool} {structures : List Bytes} {m : Bytes} :
    last? kind structures = some m ↔ ∃ earlier later, structures = earlier ++ m :: later ∧
      kind m = true ∧ ∀ s ∈ later, ¬kind s = true := by
  rw [last?, List.getLast?_eq_some_iff]
  constructor
  · rintro ⟨front, hfilter⟩
    obtain ⟨first, second, rfl, -, hsecond⟩ := List.filter_eq_append_iff.mp hfilter
    obtain ⟨between, later, rfl, -, hm, hlater⟩ := List.filter_eq_cons_iff.mp hsecond
    refine ⟨first ++ between, later, ?_, hm, List.filter_eq_nil_iff.mp hlater⟩
    rw [List.append_assoc]
  · rintro ⟨earlier, later, rfl, hm, hlater⟩
    refine ⟨earlier.filter kind, ?_⟩
    rw [List.filter_append, List.filter_cons_of_pos hm, List.filter_eq_nil_iff.mpr hlater]

theorem kind_of_last? {kind : Bytes → Bool} {structures : List Bytes} {m : Bytes}
    (h : last? kind structures = some m) : kind m = true := by
  obtain ⟨-, -, -, hm, -⟩ := last?_eq_some_iff.mp h
  exact hm

theorem exists_last?_iff {kind : Bytes → Bool} {structures : List Bytes} :
    (∃ m, last? kind structures = some m) ↔ ∃ m ∈ structures, kind m = true := by
  rw [← Option.isSome_iff_exists, last?, List.getLast?_isSome, ne_eq, List.filter_eq_nil_iff]
  simp only [not_forall, not_not, exists_prop]

/-- Where there is one structure of a kind at most, its place does not matter. -/
theorem last?_perm {kind : Bytes → Bool} {structures others : List Bytes}
    (h : structures.Perm others) (hone : structures.countP kind ≤ 1) :
    last? kind structures = last? kind others := by
  have hperm := h.filter kind
  rw [List.countP_eq_length_filter] at hone
  rw [last?, last?]
  cases hfilter : structures.filter kind with
  | nil =>
    rw [hfilter] at hperm
    rw [hperm.nil_eq]
  | cons m rest =>
    rw [hfilter, List.length_cons] at hone
    obtain rfl : rest = [] := List.eq_nil_of_length_eq_zero (by omega)
    rw [hfilter] at hperm
    rw [List.singleton_perm.mp hperm]

namespace FirstGeneration

theorem isManufacturerData_name : isManufacturerData name = false := by decide

theorem isManufacturerData_serviceList : isManufacturerData serviceList = false := by decide

theorem serviceList_ne_name : serviceList ≠ name := by decide

/-- Each mark is kept by a test of its own. -/
theorem note_eq (m : Marks) (s : Bytes) :
    m.note s = { named := m.named || decide (name = s)
                 listed := m.listed || decide (serviceList = s)
                 payload := if isManufacturerData s then some (s.drop 4) else m.payload } := by
  rw [Marks.note]
  by_cases hname : s = name
  · simp [hname, isManufacturerData_name, serviceList_ne_name]
  · by_cases hlist : s = serviceList
    · simp [hlist, isManufacturerData_serviceList, serviceList_ne_name, serviceList_ne_name.symm]
    · cases isManufacturerData s <;> simp [hname, hlist, Ne.symm hname, Ne.symm hlist]

theorem foldl_note (structures : List Bytes) :
    structures.foldl Marks.note {} =
      { named := decide (name ∈ structures)
        listed := decide (serviceList ∈ structures)
        payload := (last? isManufacturerData structures).map (List.drop 4) } := by
  induction structures using List.reverseRecOn with
  | nil => rfl
  | append_singleton structures s ih =>
    rw [List.foldl_append, ih, List.foldl_cons, List.foldl_nil, note_eq, last?_concat]
    simp only [List.mem_append, List.mem_singleton, Bool.decide_or]
    congr 1
    cases isManufacturerData s <;> rfl

end FirstGeneration

namespace SecondGeneration

theorem isStatus_name : isStatus name = false := by decide

theorem isPartner_name : isPartner name = false := by decide

/-- The makers of the two structures differ. -/
theorem isPartner_of_isStatus {s : Bytes} (h : isStatus s = true) : isPartner s = false := by
  simp only [isStatus, Bool.and_eq_true, beq_iff_eq] at h
  simp only [isPartner, h.2]
  exact Bool.and_eq_false_imp.mpr fun _ => by decide

theorem isStatus_of_isPartner {s : Bytes} (h : isPartner s = true) : isStatus s = false := by
  cases hstatus : isStatus s with
  | false => rfl
  | true => rw [isPartner_of_isStatus hstatus] at h; cases h

/-- Each mark is kept by a test of its own. -/
theorem note_eq (m : Marks) (s : Bytes) :
    m.note s = { named := m.named || decide (name = s)
                 payload := if isStatus s then some (s.drop 4) else m.payload
                 partner := if isPartner s then some (s.drop 4) else m.partner } := by
  rw [Marks.note]
  by_cases hname : s = name
  · simp [hname, isStatus_name, isPartner_name]
  · cases hstatus : isStatus s with
    | true => simp [hname, isPartner_of_isStatus hstatus, Ne.symm hname]
    | false => cases isPartner s <;> simp [hname, Ne.symm hname]

theorem foldl_note (structures : List Bytes) :
    structures.foldl Marks.note {} =
      { named := decide (name ∈ structures)
        payload := (last? isStatus structures).map (List.drop 4)
        partner := (last? isPartner structures).map (List.drop 4) } := by
  induction structures using List.reverseRecOn with
  | nil => rfl
  | append_singleton structures s ih =>
    rw [List.foldl_append, ih, List.foldl_cons, List.foldl_nil, note_eq, last?_concat, last?_concat]
    simp only [List.mem_append, List.mem_singleton, Bool.decide_or]
    congr 1
    · cases isStatus s <;> rfl
    · cases isPartner s <;> rfl

end SecondGeneration

end SerialBridge.Advertisement

import SerialBridge.Cli.Program
import SerialBridge.Proofs.Text.Spelling

/-!
# Reports on many arguments

The report on a list of arguments is made of the reports on each of them, in order. The command
succeeds exactly when every argument is the text of an advertisement, and such a text may have
separators anywhere among its digits.
-/

namespace SerialBridge.Cli.Advertisements

/-- Blanks of ASCII, and the colon. -/
def separators : List Char := [' ', '\t', '\n', '\x0c', '\r', ':']

/-- An argument that is the text of an advertisement. -/
def Accepted (text : String) : Prop :=
  ∃ raw a, bytes text = .ok raw ∧ Advertisement.decode raw = some a

theorem isSeparator_iff {c : Char} : isSeparator c = true ↔ c ∈ separators := by
  simp [isSeparator, separators, or_assoc]

theorem digits_eq (text : String) : digits text = text.toList.filter (· ∉ separators) := by
  rw [digits]
  congr 1
  funext c
  simp [← isSeparator_iff]

/-- An argument is decoded exactly when what is left of it without separators spells the bytes. -/
theorem bytes_eq_ok_iff {text : String} {raw : Bytes} :
    bytes text = .ok raw ↔ Hex.Spells (text.toList.filter (· ∉ separators)) raw := by
  rw [bytes, digits_eq]
  exact Hex.decodeCodes_eq_ok_iff

theorem code_report (text : String) :
    Accepted text ∧ (report text).code = 0 ∨ ¬Accepted text ∧ (report text).code = 1 := by
  cases hbytes : bytes text with
  | error e =>
    right
    constructor
    · rintro ⟨raw, a, hraw, -⟩
      cases hbytes.symm.trans hraw
    · simp only [report, hbytes]
  | ok raw =>
    cases hdecode : Advertisement.decode raw with
    | some a =>
      left
      constructor
      · exact ⟨raw, a, hbytes, hdecode⟩
      · simp only [report, hbytes, hdecode]
    | none =>
      right
      refine ⟨?_, by simp only [report, hbytes, hdecode]⟩
      rintro ⟨other, a, hother, ha⟩
      obtain rfl : raw = other := Except.ok.inj (hbytes.symm.trans hother)
      cases hdecode.symm.trans ha

/-- The worst of the codes says whether all arguments were accepted. -/
theorem code_run (texts : List String) :
    (∀ text ∈ texts, Accepted text) ∧ (run texts).code = 0 ∨
      (¬∀ text ∈ texts, Accepted text) ∧ (run texts).code = 1 := by
  induction texts with
  | nil => exact .inl ⟨List.forall_mem_nil _, rfl⟩
  | cons text rest ih =>
    rw [List.forall_mem_cons, run]
    obtain ⟨hfirst, hcode⟩ | ⟨hfirst, hcode⟩ := code_report text
    · obtain ⟨hrest, hothers⟩ | ⟨hrest, hothers⟩ := ih
      · exact .inl ⟨⟨hfirst, hrest⟩, by rw [hcode, hothers]; rfl⟩
      · exact .inr ⟨fun h => hrest h.2, by rw [hcode, hothers]; rfl⟩
    · refine .inr ⟨fun h => hfirst h.1, ?_⟩
      obtain ⟨-, hothers⟩ | ⟨-, hothers⟩ := ih <;> rw [hcode, hothers] <;> rfl

theorem lines_run (texts : List String) :
    (run texts).lines = texts.flatMap fun text => (report text).lines := by
  induction texts with
  | nil => rfl
  | cons text rest ih => rw [run, List.flatMap_cons, ih]

theorem output_run (texts : List String) :
    (run texts).output = String.join (texts.map fun text => (report text).output) := by
  induction texts with
  | nil => rfl
  | cons text rest ih =>
    rw [List.map_cons, String.join_cons, ← ih]
    simp [run, Report.output]

theorem complaint_run (texts : List String) : (run texts).complaint = none := by
  cases texts <;> rfl

/-- The command on any list of arguments. An argument is decoded exactly when it is a row of pairs of
hexadecimal digits of either case with separators anywhere. The exit code is 0 if every argument is
decoded to the data of an advertisement, and 1 otherwise. The output is that on each argument by
itself, one after another. -/
theorem reports_apart (files : Files) (verbosity : Nat) (texts : List String) :
    let whole := perform files verbosity (.advertisements texts)
    (∀ text raw, bytes text = .ok raw ↔
      Hex.Spells (text.toList.filter (· ∉ [' ', '\t', '\n', '\x0c', '\r', ':'])) raw) ∧
    (whole.code = 0 ↔ ∀ text ∈ texts, ∃ raw a, bytes text = .ok raw ∧
      Advertisement.decode raw = some a) ∧
    (whole.code ≠ 0 → whole.code = 1) ∧ whole.complaint = none ∧
    (whole.lines = texts.flatMap fun text => (report text).lines) ∧
    whole.output = String.join (texts.map fun text => (report text).output) := by
  intro whole
  have hcode : whole.code = 0 ↔ ∀ text ∈ texts, Accepted text := by
    obtain ⟨hall, hzero⟩ | ⟨hall, hone⟩ := code_run texts
    · exact iff_of_true hzero hall
    · refine iff_of_false ?_ hall
      intro hzero
      cases hone.symm.trans hzero
  refine ⟨fun text raw => bytes_eq_ok_iff, hcode, ?_, complaint_run texts, lines_run texts,
    output_run texts⟩
  intro hne
  obtain ⟨-, hzero⟩ | ⟨-, hone⟩ := code_run texts
  · exact absurd hzero hne
  · exact hone

end SerialBridge.Cli.Advertisements

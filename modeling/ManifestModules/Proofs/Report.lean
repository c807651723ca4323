import ManifestModules.Trouble
import Mathlib.Data.List.Infix

/-!
# What a report keeps of a trouble

A report names the outermost message of a trouble, which is the context that was put around it last.
Only the advice for missing and forbidden files is given without it: there the report is that of the
root alone, whatever was put around it.
-/

namespace ManifestModules

/-- A file that is missing or forbidden. There is advice for it, whatever was to be done with it. -/
def RootCause.Unavailable : RootCause → Prop
  | .io .notFound _ | .io .permissionDenied _ => True
  | .io .other _ | .failure _ | .plain _ => False

theorem Failure.message_detached (failure : Failure) :
    failure.detached.message = failure.message := by
  cases failure <;> rfl

namespace Report

theorem infix_append_left (label message : String) :
    message.toList <:+: (label ++ message).toList := by
  rw [String.toList_append]
  exact (List.suffix_append ..).isInfix

theorem infix_append_right (message rest : String) :
    message.toList <:+: (message ++ rest).toList := by
  rw [String.toList_append]
  exact (List.prefix_append ..).isInfix

/-- A message can be read in the report, both as one text and in its lines. -/
def Names (report : Report) (message : String) : Prop :=
  message.toList <:+: report.text.toList ∧
    ∃ line ∈ report.lines, message.toList <:+: line.toList

section

variable {report : Report} {message details : String}

theorem names_of_infix_message (h : message.toList <:+: report.failure.message.toList) :
    report.Names message := by
  constructor
  · rw [text, String.append_assoc]
    exact h.trans (infix_append_right ..)
  · refine ⟨"error: " ++ report.failure.message, List.mem_cons_self .., ?_⟩
    exact h.trans (infix_append_left ..)

theorem names_of_infix_details (hdetails : report.details = some details)
    (h : message.toList <:+: details.toList) : report.Names message := by
  constructor
  · rw [text, hdetails]
    exact ((h.trans (infix_append_left "\nDetails: " details)).trans (infix_append_left ..)).trans
      (infix_append_right ..)
  · refine ⟨"details: " ++ details, ?_, h.trans (infix_append_left ..)⟩
    rw [lines, hdetails]
    exact List.mem_append_left _ (List.mem_append_right _ (List.mem_singleton_self _))

theorem failure_ofFailure (failure : Failure) : (ofFailure failure).failure = failure := by
  cases failure <;> rfl

end

variable {trouble : Trouble}

/-- A failure is reported as itself, and any context in its details. -/
theorem names_ofTrouble_failure {cause : Failure} (h : trouble.root = .failure cause) :
    (ofTrouble trouble).Names trouble.outermost := by
  rw [ofTrouble, h]
  by_cases houtermost : trouble.outermost = cause.message
  · simp only [houtermost, if_true]
    apply names_of_infix_message
    rw [failure_ofFailure, Failure.message_detached]
  · simp only [houtermost, if_false]
    apply names_of_infix_details rfl
    cases (ofFailure cause.detached).details with
    | none => exact List.infix_rfl
    | some details =>
      change _ <:+: (trouble.outermost ++ ". " ++ details).toList
      rw [String.append_assoc]
      exact infix_append_right ..

/-- A trouble without advice is told from its outermost message on. -/
theorem names_of_other {rest : String} (h : ofTrouble trouble =
    ⟨.other (trouble.outermost ++ rest), none, none⟩) :
    (ofTrouble trouble).Names trouble.outermost := by
  apply names_of_infix_message
  rw [h]
  exact infix_append_right trouble.outermost rest

theorem names_ofTrouble (h : ¬ trouble.root.Unavailable) :
    (ofTrouble trouble).Names trouble.outermost := by
  rcases trouble with ⟨cause | ⟨kind, text⟩ | text, contexts⟩
  · exact names_ofTrouble_failure rfl
  · cases kind with
    | notFound => exact absurd trivial h
    | permissionDenied => exact absurd trivial h
    | other => exact names_of_other rfl
  · exact names_of_other rfl

/-- The advice for a file repeats the text of the error. -/
theorem names_ofTrouble_of_bare (h : trouble.contexts = []) :
    (ofTrouble trouble).Names trouble.outermost := by
  by_cases hroot : trouble.root.Unavailable
  · rcases trouble with ⟨cause | ⟨kind, text⟩ | text, contexts⟩
    · exact hroot.elim
    · subst h
      cases kind with
      | notFound => exact names_of_infix_message (infix_append_left "File not found: " text)
      | permissionDenied =>
        exact names_of_infix_message (infix_append_left "Permission denied: " text)
      | other => exact hroot.elim
    · exact hroot.elim
  · exact names_ofTrouble hroot

/-- What is put around a file error that has its own advice does not show. -/
theorem ofTrouble_of_unavailable (h : trouble.root.Unavailable) :
    ofTrouble trouble = ofTrouble ⟨trouble.root, []⟩ := by
  rcases trouble with ⟨cause | ⟨kind, text⟩ | text, contexts⟩
  · exact h.elim
  · cases kind with
    | notFound => rfl
    | permissionDenied => rfl
    | other => exact h.elim
  · exact h.elim

/-- What holds of all reports that name the outermost message holds of this one, unless contexts
were put around a missing or forbidden file. -/
theorem ofTrouble_iff_of_names {shown : Report → Prop}
    (h : ∀ report : Report, report.Names trouble.outermost → shown report) :
    shown (ofTrouble trouble) ↔
      (trouble.root.Unavailable →
        trouble.contexts = [] ∨ shown (ofTrouble ⟨trouble.root, []⟩)) := by
  constructor
  · intro hshown hroot
    rw [ofTrouble_of_unavailable hroot] at hshown
    exact .inr hshown
  · intro hshown
    by_cases hroot : trouble.root.Unavailable
    · rcases hshown hroot with hbare | hshown
      · exact h _ (names_ofTrouble_of_bare hbare)
      · rwa [ofTrouble_of_unavailable hroot]
    · exact h _ (names_ofTrouble hroot)

/-- The outermost message can be read in the text of a report and in its lines, unless contexts were
put around a missing or forbidden file: the report is then that of the bare file error. -/
theorem outermost_infix_iff (trouble : Trouble) :
    (trouble.outermost.toList <:+: (ofTrouble trouble).text.toList ↔
      (trouble.root.Unavailable → trouble.contexts = [] ∨
        trouble.outermost.toList <:+: (ofTrouble ⟨trouble.root, []⟩).text.toList)) ∧
    ((∃ line ∈ (ofTrouble trouble).lines, trouble.outermost.toList <:+: line.toList) ↔
      (trouble.root.Unavailable → trouble.contexts = [] ∨
        ∃ line ∈ (ofTrouble ⟨trouble.root, []⟩).lines,
          trouble.outermost.toList <:+: line.toList)) :=
  ⟨ofTrouble_iff_of_names fun _ hnames => hnames.1, ofTrouble_iff_of_names fun _ hnames => hnames.2⟩

def missingSettings : Trouble :=
  ⟨.io .notFound "No such file or directory (os error 2)", ["Failed to read config from app.toml"]⟩

/-- Neither the text nor the lines tell which file is missing. -/
theorem missingSettings_unnamed :
    ¬ missingSettings.outermost.toList <:+: (ofTrouble missingSettings).text.toList ∧
      ∀ line ∈ (ofTrouble missingSettings).lines,
        ¬ missingSettings.outermost.toList <:+: line.toList := by
  decide +kernel

end Report

end ManifestModules

/-
**Commands for a build log can be read back.**

Each violation gives one command, on a line of its own: in the message the characters that would end the
line are written as numbers, and so is the percent sign with which such numbers start.  The fields before
the message are told apart by what stands between them.  So a reader that cuts the text at its line feeds
finds one line for each violation, and gets back whether it is an error, its place and its message,
whatever the message is.

Main definitions:

* `Remark` — what a command tells of a violation;
* `Remark.ofCommand?`, `remarksOf?` — reading a command, and the commands of a text.

Main results:

* `commandText_eq_replace` — one character after the other is written as one replacement after the other
  does it;
* `messageOf_commandText` — **a message is read back**, also if it looks as if it had been written so;
* `Remark.ofCommand?_command` — a command is read back;
* `renderCommands_read_back` — **a report is read back line by line**.
-/
import DesignRegistry.Proofs.Number.Digits
import DesignRegistry.Proofs.Prelude
import DesignRegistry.Proofs.Text.Pieces
import DesignRegistry.Scan.Report

set_option relaxedAutoImplicit false
set_option autoImplicit false

namespace DesignRegistry

/-! ### Reading a command -/

/-- The message that a command carries: the numbers are characters again. -/
def messageOf : List Char → List Char
  | '%' :: '2' :: '5' :: cs => '%' :: messageOf cs
  | '%' :: '0' :: 'D' :: cs => '\r' :: messageOf cs
  | '%' :: '0' :: 'A' :: cs => '\n' :: messageOf cs
  | c :: cs => c :: messageOf cs
  | [] => []

/-- The integer that digits denote, behind a minus sign or not. -/
def intOfDigits : List Char → ℤ
  | '-' :: cs => -(natOfDigits cs : ℤ)
  | cs => natOfDigits cs

/-- What a command tells of a violation. -/
structure Remark where
  /-- Whether it is an error. -/
  isError : Bool
  /-- The path of the file. -/
  file : String
  /-- The line. -/
  line : ℤ
  /-- The column. -/
  column : ℤ
  /-- What is said. -/
  message : String
deriving DecidableEq, Repr

namespace Remark

/-- What is told of a violation. -/
def ofViolation (v : Violation) : Remark :=
  { isError := v.isError, file := v.file, line := v.line, column := v.column, message := v.message }

/-- Whether a level is the one of errors; there is one other. -/
def levelOf? (level : List Char) : Option Bool :=
  if level = "::error".toList then some true
  else if level = "::warning".toList then some false
  else none

/-- The remark of a command. -/
def ofCommand? (command : List Char) : Option Remark := do
  let (level, fields) ← cutAt? " file=".toList command
  let isError ← levelOf? level
  let (file, fields) ← cutAt? ",line=".toList fields
  let (line, fields) ← cutAt? ",col=".toList fields
  let (column, data) ← cutAt? "::".toList fields
  return { isError, file := String.ofList file, line := intOfDigits line
           column := intOfDigits column, message := String.ofList (messageOf data) }

end Remark

/-- The remarks of a text that is made of commands, each with a line feed behind it. -/
def remarksOf? (text : List Char) : Option (List Remark) :=
  if (pieces '\n' text).getLast? = some [] then
    (pieces '\n' text).dropLast.mapM Remark.ofCommand?
  else none

/-! ### Messages -/

theorem messageOf_cons {c : Char} (h : c ≠ '%') (cs : List Char) :
    messageOf (c :: cs) = c :: messageOf cs := by
  rw [messageOf] <;> exact fun _ hc _ => h hc

namespace ScanResult

theorem commandChar_of_ne {c : Char} (hpercent : c ≠ '%') (hreturn : c ≠ '\r') (hfeed : c ≠ '\n') :
    commandChar c = [c] := by
  rw [commandChar, if_neg hpercent, if_neg hreturn, if_neg hfeed]

/-- A character that is written is read back, whatever follows it. -/
theorem messageOf_commandChar (c : Char) (cs : List Char) :
    messageOf (commandChar c ++ cs) = c :: messageOf cs := by
  by_cases hpercent : c = '%'
  · subst hpercent
    rfl
  · by_cases hreturn : c = '\r'
    · subst hreturn
      rfl
    · by_cases hfeed : c = '\n'
      · subst hfeed
        rfl
      · rw [commandChar_of_ne hpercent hreturn hfeed]
        exact messageOf_cons hpercent cs

/-- A message is read back. -/
theorem messageOf_commandText (s : String) : messageOf (commandText s).toList = s.toList := by
  rw [commandText, String.toList_ofList]
  induction s.toList with
  | nil => rfl
  | cons c cs ih => rw [List.flatMap_cons, messageOf_commandChar, ih]

/-- Nothing in a message ends its line. -/
theorem notMem_commandText (s : String) :
    '\n' ∉ (commandText s).toList ∧ '\r' ∉ (commandText s).toList := by
  have hchar (c d : Char) (hd : d ∈ commandChar c) : d ≠ '\n' ∧ d ≠ '\r' := by
    by_cases hpercent : c = '%'
    · subst hpercent
      revert d
      decide
    · by_cases hreturn : c = '\r'
      · subst hreturn
        revert d
        decide
      · by_cases hfeed : c = '\n'
        · subst hfeed
          revert d
          decide
        · rw [commandChar_of_ne hpercent hreturn hfeed, List.mem_singleton] at hd
          exact hd ▸ ⟨hfeed, hreturn⟩
  rw [commandText, String.toList_ofList]
  constructor <;> intro hmem <;> obtain ⟨c, -, hc⟩ := List.mem_flatMap.1 hmem
  · exact (hchar c _ hc).1 rfl
  · exact (hchar c _ hc).2 rfl

end ScanResult

/-- Each occurrence of one character is replaced on its own. -/
theorem replaceAll_singleton (mark : Char) (new s : List Char) :
    replaceAll [mark] new s = s.flatMap fun c => if c = mark then new else [c] := by
  rw [replaceAll]
  induction s with
  | nil => rfl
  | cons c cs ih =>
      rw [replaceFrom, List.flatMap_cons, List.length_singleton, ih]
      by_cases hc : c = mark
      · rw [if_pos hc, if_pos (startsWith_iff.2 ⟨cs, by rw [hc]; rfl⟩)]
      · rw [if_neg hc, if_neg fun hstart => ?_]
        · rfl
        · obtain ⟨more, hmore⟩ := startsWith_iff.1 hstart
          exact hc (List.cons.inj hmore).1.symm

/-- The characters of a message are written as if they were replaced one kind after the other, the percent
sign first. -/
theorem ScanResult.commandText_eq_replace (s : String) :
    commandText s =
      Text.replace (Text.replace (Text.replace s "%" "%25") "\r" "%0D") "\n" "%0A" := by
  have hmark (mark : Char) (new s : String) : Text.replace s (String.ofList [mark]) new =
      String.ofList (s.toList.flatMap fun c => if c = mark then new.toList else [c]) := by
    rw [Text.replace, String.toList_ofList, replaceAll_singleton]
  rw [commandText, hmark '\n', hmark '\r', hmark '%']
  simp only [String.toList_ofList, List.flatMap_assoc]
  refine congrArg (fun f => String.ofList (s.toList.flatMap f)) (funext fun c => ?_)
  by_cases hpercent : c = '%'
  · subst hpercent
    rfl
  · by_cases hreturn : c = '\r'
    · subst hreturn
      rfl
    · by_cases hfeed : c = '\n'
      · subst hfeed
        rfl
      · rw [commandChar_of_ne hpercent hreturn hfeed, if_neg hpercent]
        simp [hreturn, hfeed]

/-! ### Commands -/

theorem intOfDigits_of_ne {cs : List Char} (h : ∀ ds, cs ≠ '-' :: ds) :
    intOfDigits cs = natOfDigits cs := by
  rw [intOfDigits]
  exact fun ds hds => h ds hds

/-- The digits of an integer denote it. -/
theorem intOfDigits_intDigits (n : ℤ) : intOfDigits (intDigits n) = n := by
  rw [intDigits]
  by_cases hn : n < 0
  · rw [if_pos hn, intOfDigits, natOfDigits_natDigits]
    omega
  · rw [if_neg hn, intOfDigits_of_ne, natOfDigits_natDigits]
    · omega
    · intro ds hds
      have hdigit := isDigit_of_mem_natDigits (hds ▸ List.mem_cons_self (l := ds))
      exact absurd hdigit (by decide)

/-- The digits of an integer are none of the characters that stand between fields. -/
theorem notMem_intDigits {c : Char} (hdigit : c.isDigit = false) (hsign : c ≠ '-') (n : ℤ) :
    c ∉ intDigits n := by
  have hdigits : c ∉ natDigits n.natAbs := fun hmem => by
    rw [isDigit_of_mem_natDigits hmem] at hdigit
    exact absurd hdigit (by decide)
  rw [intDigits]
  split
  · exact fun hmem => (List.mem_cons.1 hmem).elim hsign hdigits
  · exact hdigits

namespace ScanResult

/-- The level of a violation. -/
def commandLevel (v : Violation) : List Char :=
  if v.isError then "::error".toList else "::warning".toList

/-- A command is made of a level, three fields and the message. -/
theorem toList_command (v : Violation) :
    (command v).toList = commandLevel v ++ (" file=".toList ++ (v.file.toList ++
      (",line=".toList ++ (intDigits v.line ++ (",col=".toList ++ (intDigits v.column ++
        ("::".toList ++ (commandText v.message).toList))))))) := by
  unfold command commandLevel
  rw [intText, intText]
  cases v.isError <;> simp

theorem levelOf?_commandLevel (v : Violation) :
    Remark.levelOf? (commandLevel v) = some v.isError := by
  rw [commandLevel]
  cases v.isError <;> rfl

/-- A command is on one line if the name of the file is. -/
theorem notMem_command {c : Char} (hc : c = '\n' ∨ c = '\r') {v : Violation}
    (hfile : c ∉ v.file.toList) : c ∉ (command v).toList := by
  have hlevel : c ∉ commandLevel v := by
    rw [commandLevel]
    rcases hc with rfl | rfl <;> cases v.isError <;> decide
  have hmessage : c ∉ (commandText v.message).toList := by
    obtain ⟨hfeed, hreturn⟩ := notMem_commandText v.message
    rcases hc with rfl | rfl
    · exact hfeed
    · exact hreturn
  have hdigits (n : ℤ) : c ∉ intDigits n := by
    rcases hc with rfl | rfl <;> exact notMem_intDigits (by decide) (by decide) n
  have hseparators : c ∉ " file=".toList ∧ c ∉ ",line=".toList ∧ c ∉ ",col=".toList ∧
      c ∉ "::".toList := by
    rcases hc with rfl | rfl <;> decide
  simp only [toList_command, List.mem_append, not_or]
  exact ⟨hlevel, hseparators.1, hfile, hseparators.2.1, hdigits _, hseparators.2.2.1, hdigits _,
    hseparators.2.2.2, hmessage⟩

end ScanResult

open ScanResult in
/-- A command is read back if the name of the file has no comma. -/
theorem Remark.ofCommand?_command {v : Violation} (hfile : ',' ∉ v.file.toList) :
    ofCommand? (command v).toList = some (ofViolation v) := by
  have hlevel : ' ' ∉ commandLevel v := by
    rw [commandLevel]
    cases v.isError <;> decide
  have hline : ',' ∉ intDigits v.line := notMem_intDigits (by decide) (by decide) v.line
  have hcolumn : ':' ∉ intDigits v.column := notMem_intDigits (by decide) (by decide) v.column
  rw [ofCommand?, toList_command, cutAt?_append " file=".toList rfl hlevel]
  simp only [Option.bind_eq_bind, Option.bind_some, levelOf?_commandLevel]
  rw [cutAt?_append ",line=".toList rfl hfile, Option.bind_some,
    cutAt?_append ",col=".toList rfl hline, Option.bind_some,
    cutAt?_append "::".toList rfl hcolumn, Option.bind_some]
  simp only [intOfDigits_intDigits, messageOf_commandText, String.ofList_toList]
  rfl

/-! ### Reports -/

namespace ScanResult

/-- The lines of a report are its commands. -/
theorem pieces_renderCommands {r : ScanResult} (h : ∀ v ∈ r.violations, '\n' ∉ v.file.toList) :
    pieces '\n' r.renderCommands.toList =
      r.violations.map (fun v => (command v).toList) ++ [[]] := by
  rw [renderCommands, toList_withLineEnds, List.flatMap_map]
  generalize r.violations = vs at h
  induction vs with
  | nil => rfl
  | cons v vs ih =>
      rw [List.forall_mem_cons] at h
      rw [List.flatMap_cons, List.append_assoc, List.singleton_append,
        pieces_append_mark (notMem_command (.inl rfl) h.1), ih h.2, List.map_cons, List.cons_append]

end ScanResult

/-- If no file has a line end or a comma in its name, a report as commands is one line for each violation,
in order, with a line feed behind it and no line end in it; and each of them is read back as what it tells
of its violation: whether it is an error, the file, the line, the column and the message, whatever the
message is. -/
theorem renderCommands_read_back (r : ScanResult)
    (h : ∀ v ∈ r.violations, ∀ c ∈ v.file.toList, c ≠ '\n' ∧ c ≠ '\r' ∧ c ≠ ',') :
    (∃ lines : List (List Char), r.renderCommands.toList = lines.flatMap (· ++ ['\n']) ∧
      (∀ line ∈ lines, '\n' ∉ line ∧ '\r' ∉ line) ∧
      lines.map Remark.ofCommand? =
        r.violations.map fun v => some (Remark.ofViolation v)) ∧
    remarksOf? r.renderCommands.toList = some (r.violations.map Remark.ofViolation) := by
  have hread : ∀ v ∈ r.violations,
      Remark.ofCommand? (ScanResult.command v).toList = some (.ofViolation v) := fun v hv =>
    Remark.ofCommand?_command fun hmem => (h v hv ',' hmem).2.2 rfl
  constructor
  · refine ⟨r.violations.map fun v => (ScanResult.command v).toList, ?_, ?_, ?_⟩
    · rw [ScanResult.renderCommands, toList_withLineEnds, List.flatMap_map, List.flatMap_map]
    · rintro line hline
      obtain ⟨v, hv, rfl⟩ := List.mem_map.1 hline
      exact ⟨ScanResult.notMem_command (.inl rfl) fun hmem => (h v hv _ hmem).1 rfl,
        ScanResult.notMem_command (.inr rfl) fun hmem => (h v hv _ hmem).2.1 rfl⟩
    · rw [List.map_map]
      exact List.map_congr_left hread
  · rw [remarksOf?, ScanResult.pieces_renderCommands fun v hv hmem => (h v hv _ hmem).1 rfl,
      List.getLast?_concat, if_pos rfl, List.dropLast_concat]
    exact mapM_map_eq_some hread

/-- A result whose messages look like commands. -/
def noisyResult : ScanResult :=
  { violations :=
      [{ kind := "hardcoded-value", severity := .error, message := "100%0A\r\n::error file=a,line=1::"
         file := "src/page one.tsx", line := 3, column := 14 },
        { kind := "invalid-token", severity := .info, message := "%25 \n", file := "", line := 0
          column := -1 }] }

/-- Messages with line ends, percent signs and commands in them are read back. -/
theorem renderCommands_read_back_noisy :
    (∀ v ∈ noisyResult.violations, ∀ c ∈ v.file.toList, c ≠ '\n' ∧ c ≠ '\r' ∧ c ≠ ',') ∧
      remarksOf? noisyResult.renderCommands.toList =
        some [⟨true, "src/page one.tsx", 3, 14, "100%0A\r\n::error file=a,line=1::"⟩,
          ⟨false, "", 0, -1, "%25 \n"⟩] :=
  have hfiles : ∀ v ∈ noisyResult.violations, ∀ c ∈ v.file.toList, c ≠ '\n' ∧ c ≠ '\r' ∧ c ≠ ',' := by
    decide
  ⟨hfiles, (renderCommands_read_back noisyResult hfiles).2⟩

end DesignRegistry

import Delos.Source.CommandLine

/-!
# Typed commands

A command that is typed as the help text shows it is the one that the shell makes of the line, whatever the
buffer holds behind it. The character behind the name of a command is not looked at.
-/
namespace Delos.Guarantees
open Lib Source

/-- The bytes stand in the buffer from there on. -/
def Reads (buffer : Chars) : Nat → List UInt8 → Prop
  | _, [] => True
  | p, c :: rest => buffer p = c ∧ Reads buffer (p + 1) rest

/-- A line with its NUL. -/
structure HoldsLine (buffer : Chars) (line : List UInt8) : Prop where
  reads : Reads buffer 0 (line ++ [0])
  fits : line.length < shellBufferSize

/-- How a command is typed; `c` is the character behind its name. -/
def commandLine (c : UInt8) : ShellCommand → List UInt8
  | .help => textBytes "help"
  | .ps => textBytes "ps"
  | .ls => textBytes "ls"
  | .lp => textBytes "lp"
  | .clear => textBytes "clear"
  | .lastExitCode => textBytes "$?"
  | .exit => textBytes "exit"
  | .exec program => textBytes "./" ++ program
  | .touch file => textBytes "touch" ++ c :: file
  | .cp src des => textBytes "cp" ++ c :: (src ++ textBytes " " ++ des)
  | .cat file => textBytes "cat" ++ c :: file
  | .rm file => textBytes "rm" ++ c :: file
  | .print text => textBytes "echo" ++ c :: (textBytes "\"" ++ text ++ textBytes "\"")
  | .append file text => textBytes "echo" ++ c :: (textBytes "\"" ++ text ++ textBytes "\" > " ++ file)
  | .nothing | .kill _ | .unknown _ => []

/-- Without a NUL and without the characters that end a part of the line. -/
def CanBeTyped : ShellCommand → Prop
  | .exec word | .touch word | .cat word | .rm word => 0 ∉ word
  | .cp src des => 0 ∉ src ∧ UInt8.ofNat ' '.toNat ∉ src ∧ 0 ∉ des ∧ UInt8.ofNat ' '.toNat ∉ des
  | .print text => 0 ∉ text ∧ UInt8.ofNat '"'.toNat ∉ text
  | .append file text => 0 ∉ text ∧ UInt8.ofNat '"'.toNat ∉ text ∧ 0 ∉ file
  | .kill _ | .unknown _ => False
  | _ => True

section
variable {buffer : Chars} {p left : Nat} {a b word rest : List UInt8} {stops : UInt8 → Bool} {c : UInt8}

/-! ## Reading the buffer -/

theorem reads_append : Reads buffer p (a ++ b) ↔ Reads buffer p a ∧ Reads buffer (p + a.length) b := by
  induction a generalizing p with
  | nil => simp [Reads]
  | cons c a ih =>
    simp only [List.cons_append, Reads, ih, List.length_cons, and_assoc]
    rw [Nat.add_assoc, Nat.add_comm 1]

theorem charsUntil_run (reads : Reads buffer p (word ++ c :: rest)) (goes : ∀ v ∈ word, stops v = false) (ends : stops c = true)
    (room : word.length < left) : charsUntil buffer stops left p = word := by
  induction word generalizing p left with
  | nil =>
    obtain ⟨here, _⟩ := reads
    cases left with
    | zero => exact absurd room (Nat.not_lt_zero _)
    | succ left => rw [charsUntil, here, if_pos ends]
  | cons v word ih =>
    obtain ⟨here, later⟩ := reads
    cases left with
    | zero => exact absurd room (Nat.not_lt_zero _)
    | succ left =>
      have stays : ¬ stops v = true := by simp [goes v List.mem_cons_self]
      rw [charsUntil, here, if_neg stays, ih later (fun w inside => goes w (List.mem_cons_of_mem _ inside))
        (Nat.lt_of_succ_lt_succ room)]

/-- Only the last byte may be a NUL. -/
theorem sameUpTo_iff {str2 : Chars} (some : rest ≠ []) (chars : Reads str2 p rest) (plain : 0 ∉ rest.dropLast) :
    sameUpTo buffer str2 (p + (rest.length - 1)) rest.length p = true ↔ Reads buffer p rest := by
  induction rest generalizing p with
  | nil => exact absurd rfl some
  | cons c rest ih =>
    obtain ⟨here, later⟩ := chars
    rw [List.length_cons, sameUpTo, here]
    by_cases same : buffer p = c
    · cases rest with
      | nil => simp [same, Reads]
      | cons d rest =>
        rw [List.dropLast_cons_cons, List.mem_cons, not_or] at plain
        have goesOn : ¬ (buffer p = 0 ∨ p ≥ p + (rest.length + 1 + 1 - 1)) := by
          rintro (nul | far)
          · exact plain.1 (nul.symm.trans same)
          · omega
        have next := ih (List.cons_ne_nil _ _) later plain.2
        have place : p + (rest.length + 1 + 1 - 1) = p + 1 + ((d :: rest).length - 1) := by
          rw [List.length_cons]
          omega
        rw [if_pos same, List.length_cons, if_neg goesOn, place, ← List.length_cons (a := d), next]
        simp [Reads, same]
    · simp [same, Reads]

theorem reads_of_get (each : ∀ i, (small : i < rest.length) → buffer (p + i) = rest[i]) : Reads buffer p rest := by
  induction rest generalizing p with
  | nil => trivial
  | cons c rest ih =>
    refine ⟨each 0 (Nat.succ_pos _), ih fun i small => ?_⟩
    rw [Nat.add_assoc, Nat.add_comm 1]
    exact each (i + 1) (Nat.succ_lt_succ small)

theorem reads_constant (text : String) : Reads (constant text) 0 (textBytes text ++ [0]) := by
  apply reads_of_get
  intro i small
  rw [Nat.zero_add, constant, List.getD_eq_getElem?_getD, List.getElem_append]
  split
  next inside => simp [inside]
  next outside =>
    rw [List.getElem?_eq_none (Nat.not_lt.mp outside)]
    simp

theorem begins_iff (word : String) (some : textBytes word ≠ []) (plain : 0 ∉ textBytes word) :
    begins buffer word = true ↔ Reads buffer 0 (textBytes word) := by
  have positive : 0 < (textBytes word).length := List.length_pos_iff.mpr some
  have whole : sameUpTo buffer (constant word) (0 + ((textBytes word).length - 1)) (textBytes word).length 0 = true ↔
      Reads buffer 0 (textBytes word) := sameUpTo_iff some (reads_append.mp (reads_constant word)).1
    fun inside => plain (List.dropLast_subset _ inside)
  rw [begins, ← whole, Nat.zero_add, Nat.sub_add_cancel positive]

theorem equals_iff (word : String) (plain : 0 ∉ textBytes word) :
    equals buffer word = true ↔ Reads buffer 0 (textBytes word ++ [0]) := by
  have whole : sameUpTo buffer (constant word) (0 + ((textBytes word ++ [0]).length - 1)) (textBytes word ++ [0]).length 0 =
      true ↔ Reads buffer 0 (textBytes word ++ [0]) := sameUpTo_iff (List.append_ne_nil_of_right_ne_nil _ (List.cons_ne_nil _ _))
    (reads_constant word) (by rwa [List.dropLast_concat])
  rw [equals, ← whole, Nat.zero_add]
  simp only [List.length_append, List.length_singleton, Nat.add_sub_cancel]

instance readsDecidable (buffer : Chars) : (p : Nat) → (a : List UInt8) → Decidable (Reads buffer p a)
  | _, [] => inferInstanceAs (Decidable True)
  | p, c :: rest =>
    have := readsDecidable buffer (p + 1) rest
    inferInstanceAs (Decidable (buffer p = c ∧ Reads buffer (p + 1) rest))

/-- The words with their bytes. -/
theorem parseLine_reads (buffer : Chars) : parseLine buffer =
    (if Reads buffer 0 [104, 101, 108, 112, 0] then .help
    else if Reads buffer 0 [112, 115, 0] then .ps
    else if Reads buffer 0 [108, 115, 0] then .ls
    else if Reads buffer 0 [108, 112, 0] then .lp
    else if Reads buffer 0 [46, 47] then .exec (stringAt buffer 2)
    else if Reads buffer 0 [107, 105, 108, 108] then .kill (atoi (some fun i => buffer (5 + i)))
    else if Reads buffer 0 [116, 111, 117, 99, 104] then .touch (stringAt buffer 6)
    else if Reads buffer 0 [99, 112] then parseCp buffer
    else if Reads buffer 0 [99, 97, 116] then .cat (stringAt buffer 4)
    else if Reads buffer 0 [101, 99, 104, 111] then parseEcho buffer
    else if Reads buffer 0 [114, 109] then .rm (stringAt buffer 3)
    else if Reads buffer 0 [99, 108, 101, 97, 114, 0] then .clear
    else if Reads buffer 0 [36, 63, 0] then .lastExitCode
    else if Reads buffer 0 [101, 120, 105, 116, 0] then .exit
    else if stringAt buffer 0 = [] then .nothing
    else .unknown (stringAt buffer 0)) := by
  have help : equals buffer "help" = true ↔ Reads buffer 0 [104, 101, 108, 112, 0] := equals_iff "help" (by decide)
  have ps : equals buffer "ps" = true ↔ Reads buffer 0 [112, 115, 0] := equals_iff "ps" (by decide)
  have ls : equals buffer "ls" = true ↔ Reads buffer 0 [108, 115, 0] := equals_iff "ls" (by decide)
  have lp : equals buffer "lp" = true ↔ Reads buffer 0 [108, 112, 0] := equals_iff "lp" (by decide)
  have exec : begins buffer "./" = true ↔ Reads buffer 0 [46, 47] := begins_iff "./" (by decide) (by decide)
  have kill : begins buffer "kill" = true ↔ Reads buffer 0 [107, 105, 108, 108] := begins_iff "kill" (by decide) (by decide)
  have touch : begins buffer "touch" = true ↔ Reads buffer 0 [116, 111, 117, 99, 104] := begins_iff "touch" (by decide) (by decide)
  have cp : begins buffer "cp" = true ↔ Reads buffer 0 [99, 112] := begins_iff "cp" (by decide) (by decide)
  have cat : begins buffer "cat" = true ↔ Reads buffer 0 [99, 97, 116] := begins_iff "cat" (by decide) (by decide)
  have echo : begins buffer "echo" = true ↔ Reads buffer 0 [101, 99, 104, 111] := begins_iff "echo" (by decide) (by decide)
  have rm : begins buffer "rm" = true ↔ Reads buffer 0 [114, 109] := begins_iff "rm" (by decide) (by decide)
  have clear : equals buffer "clear" = true ↔ Reads buffer 0 [99, 108, 101, 97, 114, 0] := equals_iff "clear" (by decide)
  have status : equals buffer "$?" = true ↔ Reads buffer 0 [36, 63, 0] := equals_iff "$?" (by decide)
  have exit : equals buffer "exit" = true ↔ Reads buffer 0 [101, 120, 105, 116, 0] := equals_iff "exit" (by decide)
  simp only [parseLine, help, ps, ls, lp, exec, kill, touch, cp, cat, echo, rm, clear, status, exit]

theorem stringAt_run (reads : Reads buffer p (word ++ 0 :: rest)) (plain : 0 ∉ word) (room : p + word.length < shellBufferSize) :
    stringAt buffer p = word := by
  apply charsUntil_run reads
  · rintro v inside
    have other : v ≠ 0 := fun nul => plain (nul ▸ inside)
    simp [isNul, other]
  · rfl
  · omega

theorem wordAt_run {d : Char} {v : UInt8} (reads : Reads buffer p (word ++ v :: rest)) (plain : 0 ∉ word)
    (other : UInt8.ofNat d.toNat ∉ word) (ends : endsAt d v = true) (room : p + word.length < shellBufferSize) :
    wordAt buffer d p = (word, p + word.length) := by
  have goes : ∀ w ∈ word, endsAt d w = false := by
    intro w inside
    have some : w ≠ 0 := fun nul => plain (nul ▸ inside)
    have apart : w ≠ UInt8.ofNat d.toNat := fun same => other (same ▸ inside)
    simp [endsAt, some, apart]
  rw [wordAt, charsUntil_run reads goes ends (by omega)]

/-- What stands behind the front of a line. -/
theorem word_line (front : List UInt8) (holds : HoldsLine buffer (front ++ word)) (plain : 0 ∉ word) :
    Reads buffer 0 front ∧ stringAt buffer front.length = word := by
  obtain ⟨reads, fits⟩ := holds
  rw [List.append_assoc] at reads
  rw [List.length_append] at fits
  obtain ⟨named, later⟩ := reads_append.mp reads
  rw [Nat.zero_add] at later
  exact ⟨named, stringAt_run later plain fits⟩

/-! ## The parts of a command -/

theorem cp_line {src des : List UInt8} (holds : HoldsLine buffer (99 :: 112 :: c :: (src ++ 32 :: des)))
    (typed : CanBeTyped (.cp src des)) : Reads buffer 0 [99, 112] ∧ parseCp buffer = .cp src des := by
  obtain ⟨plain, whole, plain', whole'⟩ := typed
  obtain ⟨⟨b0, b1, _, later⟩, fits⟩ := holds
  have reads : Reads buffer 3 (src ++ 32 :: (des ++ [0])) := by
    rw [← List.cons_append, ← List.append_assoc]
    exact later
  have room : 3 + src.length + 1 + des.length < shellBufferSize := by
    simp only [List.length_cons, List.length_append] at fits
    omega
  obtain ⟨_, blank, later⟩ := reads_append.mp reads
  have first : wordAt buffer ' ' 3 = (src, 3 + src.length) := wordAt_run reads plain whole rfl (by omega)
  have second : wordAt buffer ' ' (3 + src.length + 1) = (des, 3 + src.length + 1 + des.length) :=
    wordAt_run later plain' whole' rfl room
  have some : ¬ buffer (3 + src.length) = 0 := by
    rw [blank]
    decide
  refine ⟨⟨b0, b1, trivial⟩, ?_⟩
  unfold parseCp
  simp only [first, if_neg some, second]

theorem print_line {text : List UInt8} (holds : HoldsLine buffer (101 :: 99 :: 104 :: 111 :: c :: 34 :: (text ++ [34])))
    (typed : CanBeTyped (.print text)) : Reads buffer 0 [101, 99, 104, 111] ∧ parseEcho buffer = .print text := by
  obtain ⟨plain, whole⟩ := typed
  obtain ⟨⟨b0, b1, b2, b3, _, opens, later⟩, fits⟩ := holds
  have inside : Reads buffer 6 (text ++ 34 :: [0]) := by
    rw [← List.singleton_append, ← List.append_assoc]
    exact later
  have room : 6 + text.length + 1 < shellBufferSize := by
    simp only [List.length_cons, List.length_append, List.length_nil] at fits
    omega
  obtain ⟨_, closes, nul, _⟩ := reads_append.mp inside
  have quoted : wordAt buffer '"' 6 = (text, 6 + text.length) := wordAt_run inside plain whole rfl (by omega)
  have atEnd : Reads buffer (6 + text.length + 1) ([] ++ 0 :: []) := ⟨nul, trivial⟩
  have none : wordAt buffer '>' (6 + text.length + 1) = ([], 6 + text.length + 1) :=
    wordAt_run atEnd List.not_mem_nil List.not_mem_nil rfl (by simpa using room)
  have other : ¬ buffer (6 + text.length + 1) = UInt8.ofNat '>'.toNat := by
    rw [show buffer (6 + text.length + 1) = 0 from nul]
    decide
  refine ⟨⟨b0, b1, b2, b3, trivial⟩, ?_⟩
  unfold parseEcho
  rw [if_pos (show buffer 5 = UInt8.ofNat '"'.toNat from opens)]
  simp only [quoted]
  rw [if_pos (show buffer (6 + text.length) = UInt8.ofNat '"'.toNat from closes), none, if_neg other]

theorem append_line {file text : List UInt8}
    (holds : HoldsLine buffer (101 :: 99 :: 104 :: 111 :: c :: 34 :: (text ++ 34 :: 32 :: 62 :: 32 :: file)))
    (typed : CanBeTyped (.append file text)) : Reads buffer 0 [101, 99, 104, 111] ∧ parseEcho buffer = .append file text := by
  obtain ⟨plain, whole, named⟩ := typed
  obtain ⟨⟨b0, b1, b2, b3, _, opens, later⟩, fits⟩ := holds
  have inside : Reads buffer 6 (text ++ 34 :: 32 :: 62 :: 32 :: (file ++ [0])) := by
    have same : text ++ 34 :: 32 :: 62 :: 32 :: (file ++ [0]) = (text ++ 34 :: 32 :: 62 :: 32 :: file) ++ [0] :=
      (List.append_assoc text (34 :: 32 :: 62 :: 32 :: file) [0]).symm
    rw [same]
    exact later
  have room : 6 + text.length + 4 + file.length < shellBufferSize := by
    simp only [List.length_cons, List.length_append] at fits
    omega
  obtain ⟨_, closes, blank, arrow, blank', rest⟩ := reads_append.mp inside
  have quoted : wordAt buffer '"' 6 = (text, 6 + text.length) := wordAt_run inside plain whole rfl (by omega)
  have redirect : Reads buffer (6 + text.length + 1) ([32] ++ 62 :: []) := ⟨blank, arrow, trivial⟩
  have found : wordAt buffer '>' (6 + text.length + 1) = ([32], 6 + text.length + 1 + 1) :=
    wordAt_run redirect (by decide) (by decide) rfl (by rw [List.length_singleton]; omega)
  have name : stringAt buffer (6 + text.length + 1 + 1 + 2) = file := stringAt_run rest named (by omega)
  refine ⟨⟨b0, b1, b2, b3, trivial⟩, ?_⟩
  unfold parseEcho
  rw [if_pos (show buffer 5 = UInt8.ofNat '"'.toNat from opens)]
  simp only [quoted]
  rw [if_pos (show buffer (6 + text.length) = UInt8.ofNat '"'.toNat from closes), found]
  simp only
  rw [if_pos (show buffer (6 + text.length + 1 + 1) = UInt8.ofNat '>'.toNat from arrow), name]

/-! ## Every command -/

/-- What is typed is what is done. -/
theorem typed_command (cmd : ShellCommand) (c : UInt8) (typed : CanBeTyped cmd) (holds : HoldsLine buffer (commandLine c cmd)) :
    parseLine buffer = cmd := by
  rw [parseLine_reads]
  cases cmd with
  | help => exact if_pos holds.reads
  | ps | ls | lp =>
    obtain ⟨⟨b0, b1, b2, _⟩, _⟩ := holds
    simp_all [Reads]
  | clear =>
    obtain ⟨⟨b0, b1, b2, b3, b4, b5, _⟩, _⟩ := holds
    simp_all [Reads]
  | lastExitCode =>
    obtain ⟨⟨b0, b1, b2, _⟩, _⟩ := holds
    simp_all [Reads]
  | exit =>
    obtain ⟨⟨b0, b1, b2, b3, b4, _⟩, _⟩ := holds
    simp_all [Reads]
  | nothing =>
    have empty : stringAt buffer 0 = [] := (word_line [] holds List.not_mem_nil).2
    obtain ⟨⟨b0, _⟩, _⟩ := holds
    simp_all [Reads]
  | exec program =>
    obtain ⟨⟨b0, b1, _⟩, named⟩ := word_line [46, 47] holds typed
    clear holds
    simp_all [Reads]
  | kill pid => exact typed.elim
  | touch file =>
    obtain ⟨⟨b0, b1, b2, b3, b4, _⟩, named⟩ := word_line [116, 111, 117, 99, 104, c] holds typed
    clear holds
    simp_all [Reads]
  | cp src des =>
    have files : HoldsLine buffer (99 :: 112 :: c :: (src ++ 32 :: des)) := by
      rwa [commandLine, show textBytes " " = [32] from rfl, List.append_assoc] at holds
    obtain ⟨⟨b0, b1, _⟩, parsed⟩ := cp_line files typed
    clear holds files
    simp_all [Reads]
  | cat file =>
    obtain ⟨⟨b0, b1, b2, _⟩, named⟩ := word_line [99, 97, 116, c] holds typed
    clear holds
    simp_all [Reads]
  | rm file =>
    obtain ⟨⟨b0, b1, _⟩, named⟩ := word_line [114, 109, c] holds typed
    clear holds
    simp_all [Reads]
  | print text =>
    obtain ⟨⟨b0, b1, b2, b3, _⟩, parsed⟩ := print_line holds typed
    clear holds
    simp_all [Reads]
  | append file text =>
    have quoted : HoldsLine buffer (101 :: 99 :: 104 :: 111 :: c :: 34 :: (text ++ 34 :: 32 :: 62 :: 32 :: file)) := by
      rwa [commandLine, List.append_assoc (textBytes "\"" ++ text), List.append_assoc (textBytes "\"")] at holds
    obtain ⟨⟨b0, b1, b2, b3, _⟩, parsed⟩ := append_line quoted typed
    clear holds quoted
    simp_all [Reads]
  | unknown line => exact typed.elim

end

/-- A line with a text and a file. -/
theorem typed_command_append :
    parseLine (constant "echo \"hi\" > a.txt") = .append (textBytes "a.txt") (textBytes "hi") := by
  have typed : CanBeTyped (.append (textBytes "a.txt") (textBytes "hi")) := ⟨by decide, by decide, by decide⟩
  have line : commandLine 32 (.append (textBytes "a.txt") (textBytes "hi")) = textBytes "echo \"hi\" > a.txt" := by decide
  apply typed_command _ 32 typed
  rw [line]
  exact ⟨reads_constant _, by decide⟩

end Delos.Guarantees

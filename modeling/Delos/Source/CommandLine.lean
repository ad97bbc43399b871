import Delos.Source.Strings

/-!
# shell.cpp: the command line

What the loop of `main` makes of a line. Behind the NUL of the line stands what earlier lines have left in
the buffer, and a command without its argument reads on up to the end of the buffer. `kill` does
nothing but look at the number.
-/
namespace Delos.Source

/-- `BUFFER_SIZE` -/
def shellBufferSize : Nat := 256

/-- A string constant. -/
def constant (text : String) : Chars := fun i => (textBytes text).getD i 0

/-- Whether `strcmp(str1, str2, n)` is 0: the character at `n` is compared as well. -/
def sameUpTo (str1 str2 : Chars) (n : Nat) : Nat → Nat → Bool
  | 0, _ => false
  | left + 1, i =>
    if str1 i = str2 i then
      if str1 i = 0 ∨ i ≥ n then true else sameUpTo str1 str2 n left (i + 1)
    else false

/-- `strcmp(buffer, WORD, strlen(WORD) - 1) == 0` -/
def begins (buffer : Chars) (word : String) : Bool :=
  let n := (textBytes word).length - 1
  sameUpTo buffer (constant word) n (n + 1) 0

/-- `strcmp(buffer, WORD) == 0`; no NUL stops the comparison before that of the word. -/
def equals (buffer : Chars) (word : String) : Bool :=
  let n := (textBytes word).length
  sameUpTo buffer (constant word) n (n + 1) 0

/-- The characters from `curr` on, up to the first that stops. -/
def charsUntil (buffer : Chars) (stops : UInt8 → Bool) : Nat → Nat → List UInt8
  | 0, _ => []
  | left + 1, curr => if stops (buffer curr) then [] else buffer curr :: charsUntil buffer stops left (curr + 1)

def isNul (c : UInt8) : Bool := c = 0

/-- The condition of a loop over `*curr`. -/
def endsAt (c : Char) (v : UInt8) : Bool := v = 0 ∨ v = UInt8.ofNat c.toNat

/-- The string at a pointer into the buffer. -/
def stringAt (buffer : Chars) (curr : Nat) : List UInt8 := charsUntil buffer isNul (shellBufferSize - curr) curr

/-- Up to the character, and how far that is. -/
def wordAt (buffer : Chars) (c : Char) (curr : Nat) : List UInt8 × Nat :=
  let word := charsUntil buffer (endsAt c) (shellBufferSize - curr) curr
  (word, curr + word.length)

inductive ShellCommand where
  | help | ps | ls | lp | clear | lastExitCode | exit | nothing
  | exec (program : List UInt8)
  | kill (pid : Option UInt32)
  | touch (file : List UInt8)
  | cp (src des : List UInt8)
  | cat (file : List UInt8)
  | rm (file : List UInt8)
  | print (text : List UInt8)
  | append (file text : List UInt8)
  | unknown (line : List UInt8)
  deriving DecidableEq

/-- Both files of `cp`. -/
def parseCp (buffer : Chars) : ShellCommand :=
  let (src, curr) := wordAt buffer ' ' 3
  let curr := if buffer curr = 0 then curr else curr + 1
  let (des, _) := wordAt buffer ' ' curr
  .cp src des

/-- Behind the second quote only `>` is looked for, and the file starts two characters further on. -/
def parseEcho (buffer : Chars) : ShellCommand :=
  if buffer 5 = UInt8.ofNat '"'.toNat then
    let (text, curr) := wordAt buffer '"' 6
    if buffer curr = UInt8.ofNat '"'.toNat then
      let (_, curr) := wordAt buffer '>' (curr + 1)
      if buffer curr = UInt8.ofNat '>'.toNat then .append (stringAt buffer (curr + 2)) text else .print text
    else .nothing
  else .nothing

def parseLine (buffer : Chars) : ShellCommand :=
  if equals buffer "help" then .help
  else if equals buffer "ps" then .ps
  else if equals buffer "ls" then .ls
  else if equals buffer "lp" then .lp
  else if begins buffer "./" then .exec (stringAt buffer 2)
  else if begins buffer "kill" then .kill (atoi (some fun i => buffer (5 + i)))
  else if begins buffer "touch" then .touch (stringAt buffer 6)
  else if begins buffer "cp" then parseCp buffer
  else if begins buffer "cat" then .cat (stringAt buffer 4)
  else if begins buffer "echo" then parseEcho buffer
  else if begins buffer "rm" then .rm (stringAt buffer 3)
  else if equals buffer "clear" then .clear
  else if equals buffer "$?" then .lastExitCode
  else if equals buffer "exit" then .exit
  else if stringAt buffer 0 = [] then .nothing
  else .unknown (stringAt buffer 0)

end Delos.Source

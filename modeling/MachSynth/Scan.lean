/-
  A C preprocessor's view of a text, and what makes the artifact of
  `synthesize_content` a well-formed guarded header.

  * `Lex.step` reads one character as translation phases 2 and 3 do: a `\` before a
    newline splices the two lines before anything else is recognised (`Ctx.next` then
    reads the spliced text: block and line comments, string and character literals,
    and where the scan stands in the current logical line); it returns the directive
    names the character completes.  `scan` reads a text;
  * `condDepth`: the nesting of `#if`/`#ifdef`/`#ifndef` … `#endif` along a sequence
    of directive names; `Balanced`, and `Guarded` (one `#ifndef` pair enclosing all);
  * `WellFormedOutput`: the artifact ends a line outside comments, its conditionals are
    enclosed in the artifact guard pair and balanced, and every emitted body ends a
    logical line;
  * `synthesizeContent_slip_unbalanced`: the typedef re-lookup slips back to an earlier
    `typedef` and across an `#ifdef` line, and emits the `#ifdef` without its `#endif`,
    so two balanced sources give an artifact whose conditionals are not balanced.

  A comment is taken as a blank, as in translation phase 3; an unterminated literal
  ends with its line.
-/
import MachSynth.Guards

namespace MachSynth

/-! ## Scanning -/

/-- Where a scan stands in a logical line: only blanks so far, after `#`, reading a
    directive name, or anywhere else. -/
inductive Phase where
  | start
  | hash
  | name (w : List Char)
  | text
  deriving DecidableEq, Repr

/-- The lexical context of a character of spliced text: ordinary text, just after a
    `/` of ordinary text, inside a block comment (just after one of its `*`), inside a
    line comment, inside a string or character literal opened by the quote `q` (just
    after one of its `\`). -/
inductive Ctx where
  | code
  | slash
  | block
  | blockStar
  | line
  | lit (q : Char)
  | litEsc (q : Char)
  deriving DecidableEq, Repr

/-- The state of a scan. -/
structure Lex where
  /-- a `\` waiting on the next character: before a newline it splices the lines -/
  bs : Bool
  ctx : Ctx
  phase : Phase
  deriving DecidableEq, Repr

/-- At the start of a logical line, outside comments and literals. -/
def Lex.ready : Lex := ⟨false, .code, .start⟩

/-- A blank: space, tab, vertical tab, form feed. -/
def isBlank (c : Char) : Bool := c = ' ' || c = '\t' || c = '\x0b' || c = '\x0c'

/-- An ordinary character in phase `ph`: the next phase, and the directive name it
    completes. -/
def Phase.char (ph : Phase) (c : Char) : Phase × List String :=
  match ph with
  | .start => (if isBlank c then .start else if c = '#' then .hash else .text, [])
  | .hash => (if isBlank c then .hash else if isIdentChar c then .name [c] else .text, [])
  | .name w => if isIdentChar c then (.name (w ++ [c]), []) else (.text, [⟨w⟩])
  | .text => (.text, [])

/-- The end of a logical line completes the directive name being read. -/
def Phase.newline : Phase → List String
  | .name w => [⟨w⟩]
  | _ => []

/-- A comment counts as a blank: it completes the directive name being read. -/
def Phase.comment : Phase → Phase × List String
  | .name w => (.text, [⟨w⟩])
  | ph => (ph, [])

/-- The end of a logical line: the next line starts outside comments and literals. -/
def Phase.endLine (ph : Phase) : Ctx × Phase × List String := (.code, .start, ph.newline)

/-- A character of ordinary text: a newline ends the logical line, a `/` waits on the
    next character, and a quote opens a literal. -/
def codeChar (ph : Phase) (c : Char) : Ctx × Phase × List String :=
  if c = '\n' then ph.endLine
  else if c = '/' then (.slash, ph, [])
  else (if c = '"' ∨ c = '\x27' then .lit c else .code, (ph.char c).1, (ph.char c).2)

/-- Read one character of spliced text (translation phase 3): the next context and
    phase, and the directive names the character completes. -/
def Ctx.next : Ctx → Phase → Char → Ctx × Phase × List String
  | .code, ph, c => codeChar ph c
  | .slash, ph, c =>
    if c = '*' then (.block, ph.comment.1, ph.comment.2)
    else if c = '/' then (.line, ph.comment.1, ph.comment.2)
    else ((codeChar (ph.char '/').1 c).1, (codeChar (ph.char '/').1 c).2.1,
      (ph.char '/').2 ++ (codeChar (ph.char '/').1 c).2.2)
  | .block, ph, c => (if c = '*' then .blockStar else .block, ph, [])
  | .blockStar, ph, c => (if c = '/' then .code else if c = '*' then .blockStar else .block, ph, [])
  | .line, ph, c => if c = '\n' then ph.endLine else (.line, ph, [])
  | .lit q, ph, c =>
    if c = '\n' then ph.endLine else (if c = q then .code else if c = '\\' then .litEsc q else .lit q, ph, [])
  | .litEsc q, ph, c => if c = '\n' then ph.endLine else (.lit q, ph, [])

/-- Read one character (translation phases 2 and 3): a `\` waits on the next character;
    before a newline the two are deleted, otherwise the `\` is read as text first. -/
def Lex.step (s : Lex) (c : Char) : Lex × List String :=
  if s.bs ∧ c = '\n' then (⟨false, s.ctx, s.phase⟩, [])
  else
    let r := if s.bs then s.ctx.next s.phase '\\' else (s.ctx, s.phase, [])
    if c = '\\' then (⟨true, r.1, r.2.1⟩, r.2.2)
    else (⟨false, (r.1.next r.2.1 c).1, (r.1.next r.2.1 c).2.1⟩, r.2.2 ++ (r.1.next r.2.1 c).2.2)

/-- Read a text from `s`: the final state and the directive names completed, in order. -/
def scan (s : Lex) : List Char → Lex × List String
  | [] => (s, [])
  | c :: cs => ((scan (s.step c).1 cs).1, (s.step c).2 ++ (scan (s.step c).1 cs).2)

/-- Inside a block comment. -/
def Lex.inComment (s : Lex) : Bool := s.ctx = .block || s.ctx = .blockStar

/-- The splice comes first: a `/` and a `*` split by a backslash-newline open a
    comment, and inside a string literal `/*` opens none. -/
example : (scan .ready "/\\\n* #if A */\n".data).2 = [] ∧
    (scan .ready "\"/*\" \n#if A\n#endif\n".data).2 = ["if", "endif"] := by
  decide

/-! ## Conditional nesting -/

/-- `#if`, `#ifdef` and `#ifndef` open a conditional. -/
def opensCond (n : String) : Bool := n = "if" || n = "ifdef" || n = "ifndef"

/-- The directives of a conditional: those that open, continue or close one. -/
def isCond (n : String) : Bool := opensCond n || n = "elif" || n = "else" || n = "endif"

/-- The number of open conditionals after the directives `ns`, from `d` open ones;
    `none` once an `#elif`, `#else` or `#endif` stands outside every conditional. -/
def condDepth (d : Nat) : List String → Option Nat
  | [] => some d
  | n :: ns =>
    if opensCond n then condDepth (d + 1) ns
    else if isCond n then (if d = 0 then none else condDepth (if n = "endif" then d - 1 else d) ns)
    else condDepth d ns

/-- Every conditional is closed, and none is continued or closed outside one. -/
def Balanced (ns : List String) : Prop := condDepth 0 ns = some 0

instance : DecidablePred Balanced := fun _ => inferInstanceAs (Decidable (_ = _))

/-- The conditionals of a guarded header: one `#ifndef` … `#endif` pair encloses all
    the others, which are balanced. -/
def Guarded (ns : List String) : Prop :=
  ∃ inner, ns.filter isCond = "ifndef" :: inner ++ ["endif"] ∧ Balanced inner

/-! ## Well-formed output -/

/-- A text that ends at the start of a logical line, outside comments and literals. -/
def EndsLine (t : String) : Prop := (scan .ready t.data).1 = .ready

instance : DecidablePred EndsLine := fun _ => inferInstanceAs (Decidable (_ = _))

/-- A source text whose block comments are closed and whose conditionals are balanced. -/
def SourceBalanced (t : String) : Prop :=
  (scan .ready t.data).1.inComment = false ∧
    Balanced ((scan .ready t.data).2 ++ (scan .ready t.data).1.phase.newline)

instance : DecidablePred SourceBalanced := fun _ => inferInstanceAs (Decidable (_ ∧ _))

/-- A well-formed guarded header: the artifact ends a line outside comments, its
    conditional directives are enclosed in one `#ifndef` … `#endif` pair and balanced,
    and every body emitted into it ends a logical line. -/
def WellFormedOutput (ord : SetOrder) (filename : String) (contents : Dict String String) : Prop :=
  ∃ out, synthesizeContent ord filename contents = .ok out ∧ EndsLine out ∧
    Guarded (scan .ready out.data).2 ∧
    ∀ k, ∀ e ∈ sectionEntries ord k contents, ∀ b ∈ e.body, EndsLine (b ++ "\n")

/-- A source whose second typedef follows an `#ifdef` line, and an empty one. -/
def slipAcrossIfdef : Dict String String :=
  ⟨[("a", "typedef int a_t;\n#ifdef X\ntypedef int b_t;\n#endif\n"), ("b", "")], by decide⟩

set_option maxRecDepth 4000 in
/-- The re-lookup for `b_t` starts at the first `typedef` of the text, so the body it
    emits carries the `#ifdef X` line but not its `#endif`: the artifact's conditionals
    are `#ifndef`, `#ifdef`, `#endif`, `#ifdef`, `#endif`, and its last `#endif` closes
    `#ifdef X` instead of the guard. -/
theorem synthesizeContent_slip_unbalanced :
    2 ≤ slipAcrossIfdef.size ∧ (∀ sc ∈ slipAcrossIfdef.items, SourceBalanced sc.2) ∧
      ¬ WellFormedOutput .insertion "port.h" slipAcrossIfdef := by
  refine ⟨by decide, by decide, ?_⟩
  rintro ⟨out, hout, -, ⟨inner, hin, hbal⟩, -⟩
  rw [synthesizeContent_of_two_le _ _ (by decide), Except.ok.injEq] at hout
  have hconds : (scan .ready out.data).2.filter isCond = ["ifndef", "ifdef", "endif", "ifdef", "endif"] := by
    subst hout; decide
  rw [hconds] at hin
  obtain rfl : inner = ["ifdef", "endif", "ifdef"] := by
    simpa using (List.append_inj_left' (List.cons.inj hin).2 rfl).symm
  exact absurd hbal (by decide)

end MachSynth

import ThreatOrbit.Lib.Splitting

/-
  Splitting a SQL script into statements, for SQLite and for
  Postgres.

  Both scanners know literals and line comments. The one for
  SQLite also knows quoted identifiers and block comments.
-/

---- The Two Scanners

namespace ThreatOrbit.Platform

open Lib

/- The flags of `split_statements` in `db`. Where it moves on
by two characters, a state of its own stands for the
second one: of `--`, of the mark that opens a block comment
and of the one that closes it. -/
inductive DbState where
| plain
| squote
| dquote
| dashes
| line
| opening
| block
| closing
deriving DecidableEq, Repr

/- One character of the loop in `db`. -/
def dbStep : Scan DbState
| .dashes, _, _ => (.line, .drop)
| .opening, _, _ => (.block, .drop)
| .closing, _, _ => (.plain, .drop)
| .line, ch, _ =>
    if ch = cp '\n' then (.plain, .keep) else (.line, .drop)
| .block, ch, nxt =>
    if ch = cp '*' ∧ nxt = some (cp '/') then
      (.closing, .drop)
    else (.block, .drop)
| .squote, ch, _ =>
    (if ch = cp '\'' then .plain else .squote, .keep)
| .dquote, ch, _ =>
    (if ch = cp '"' then .plain else .dquote, .keep)
| .plain, ch, nxt =>
    if ch = cp '-' ∧ nxt = some (cp '-') then
      (.dashes, .drop)
    else if ch = cp '/' ∧ nxt = some (cp '*') then
      (.opening, .drop)
    else if ch = cp '\'' then (.squote, .keep)
    else if ch = cp '"' then (.dquote, .keep)
    else if ch = cp ';' then (.plain, .cut)
    else (.plain, .keep)

/- `split_statements` of `db`. -/
def splitStatements (sql : Str) : List Str :=
  split dbStep .plain sql

/- The flag of `split_statements` in `db_backend`, and its
inner loop over a line comment. -/
inductive BackendState where
| plain
| str
| line
deriving DecidableEq, Repr

/- One character of the loop in `db_backend`. The line break
after a comment is kept. -/
def backendStep : Scan BackendState
| .str, ch, _ =>
    (if ch = cp '\'' then .plain else .str, .keep)
| .line, ch, _ =>
    if ch = cp '\n' then (.plain, .keep) else (.line, .drop)
| .plain, ch, nxt =>
    if ch = cp '\'' then (.str, .keep)
    else if ch = cp '-' ∧ nxt = some (cp '-') then
      (.line, .drop)
    else if ch = cp ';' then (.plain, .cut)
    else (.plain, .keep)

/- `split_statements` of `db_backend`. -/
def backendStatements (script : Str) : List Str :=
  split backendStep .plain script

/- The quote that is open after a character, among some
quote marks. -/
def quoted
    (marks : List Nat)
    (opened : Option Nat)
    (c : Nat) : Option Nat :=
  match opened with
  | some mark => if c = mark then none else some mark
  | none => if c ∈ marks then some c else none

/- `d` and `s` are the quotes that are open when double
quotes count and when they do not. -/
@[grind =]
def uniformFrom
    (line : Bool)
    (d s : Option Nat) :
    Str → Bool
| [] => true
| c :: rest =>
    if line then uniformFrom (c != cp '\n') none none rest
    else if c = cp ';' then
      d.isSome == s.isSome && uniformFrom false d s rest
    else if c = cp '-' ∧ rest.head? = some (cp '-') then
      d.isSome == s.isSome && uniformFrom d.isNone d s rest
    else if c = cp '/' ∧ rest.head? = some (cp '*') ∧ d = none
    then false
    else
      uniformFrom false (quoted [cp '\'', cp '"'] d c)
        (quoted [cp '\''] s c) rest

/- No block comment opens outside of quotes, and every `;` and
every `--` outside of comments is inside a literal or a
quoted identifier exactly if it is inside a literal when
double quotes do not count. -/
def Uniform (script : Str) : Prop :=
  uniformFrom false none none script = true

instance (script : Str) : Decidable (Uniform script) :=
  inferInstanceAs (Decidable (_ = true))

---- The Scanners Are Lawful

def DbState.Live : DbState → Prop
| .plain => True
| .squote => True
| .dquote => True
| _ => False

def DbState.Comment : DbState → Prop
| .dashes => True
| .line => True
| _ => False

def BackendState.Live : BackendState → Prop
| .line => False
| _ => True

def BackendState.Comment : BackendState → Prop
| .line => True
| _ => False

/- White space is no mark of either scanner. -/
theorem space_ne
    {c : Nat}
    (hC : isSpace c = true) :
    c ≠ cp '\'' ∧ c ≠ cp '"' ∧ c ≠ cp '-' ∧ c ≠ cp '/' ∧
      c ≠ cp '*' ∧ c ≠ cp ';' := by
  refine ⟨?_, ?_, ?_, ?_, ?_, ?_⟩
  all_goals
    rintro rfl
    revert hC
    decide

/- What may follow a piece opens no comment. -/
theorem harmless_ne
    {next : Option Nat}
    (hNext : Harmless next) :
    next ≠ some (cp '-') ∧ next ≠ some (cp '*') := by
  rcases hNext with rfl | rfl | ⟨c, rfl, hC⟩
  · exact ⟨by decide, by decide⟩
  · exact ⟨by decide, by decide⟩
  · have hNe := space_ne hC
    exact ⟨fun h => hNe.2.2.1 (Option.some.inj h),
      fun h => hNe.2.2.2.2.1 (Option.some.inj h)⟩

/- Before something harmless, the scanner for SQLite looks at
one character. -/
theorem dbStep_harmless
    (c : Nat) {next : Option Nat} (hNext : Harmless next) :
    dbStep .plain c next =
      if c = cp '\'' then (.squote, .keep)
      else if c = cp '"' then (.dquote, .keep)
      else if c = cp ';' then (.plain, .cut)
      else (.plain, .keep) := by
  have hNe := harmless_ne hNext
  simp [dbStep, hNe]

theorem backendStep_harmless
    (c : Nat) {next : Option Nat} (hNext : Harmless next) :
    backendStep .plain c next =
      if c = cp '\'' then (.str, .keep)
      else if c = cp ';' then (.plain, .cut)
      else (.plain, .keep) := by
  have hNe := harmless_ne hNext
  simp [backendStep, hNe]

/- What the scanner for SQLite does outside of quotes and
comments. -/
theorem dbStep_plain
    {c : Nat} {next : Option Nat} {r : DbState} {act : Take}
    (hStep : dbStep .plain c next = (r, act)) :
    (act = .keep ∧ r.Live ∧
        ∀ other, Harmless other →
          dbStep .plain c other = (r, .keep)) ∨
      (act = .drop ∧ DbState.plain = .plain ∧ ¬ r.Live) ∨
      (act = .cut ∧ DbState.plain = .plain ∧ r = .plain ∧
        c = semicolon) := by
  by_cases hDashes : c = cp '-' ∧ next = some (cp '-')
  · simp only [dbStep, if_pos hDashes, Prod.mk.injEq] at hStep
    rcases hStep with ⟨rfl, rfl⟩
    exact .inr (.inl ⟨rfl, rfl, fun hLive => hLive⟩)
  by_cases hOpen : c = cp '/' ∧ next = some (cp '*')
  · simp only [dbStep, if_neg hDashes, if_pos hOpen,
      Prod.mk.injEq] at hStep
    rcases hStep with ⟨rfl, rfl⟩
    exact .inr (.inl ⟨rfl, rfl, fun hLive => hLive⟩)
  have hSame :
      ∀ other, Harmless other →
        dbStep .plain c other = (r, act) := by
    intro other hOther
    rw [dbStep_harmless c hOther, ← hStep]
    simp only [dbStep, if_neg hDashes, if_neg hOpen]
  have hHere := hSame none (.inl rfl)
  rw [dbStep_harmless c (.inl rfl)] at hHere
  split at hHere
  · cases hHere
    exact .inl ⟨rfl, trivial, hSame⟩
  · split at hHere
    · cases hHere
      exact .inl ⟨rfl, trivial, hSame⟩
    · split at hHere
      · rename_i hC
        cases hHere
        exact .inr (.inr ⟨rfl, rfl, rfl, hC⟩)
      · cases hHere
        exact .inl ⟨rfl, trivial, hSame⟩

/- In a quote every character is kept, whatever follows. -/
theorem dbStep_quote
    {q r : DbState} {c : Nat} {next : Option Nat} {act : Take}
    (hQuote : q = .squote ∨ q = .dquote)
    (hStep : dbStep q c next = (r, act)) :
    act = .keep ∧ r.Live ∧
      ∀ other, Harmless other →
        dbStep q c other = (r, .keep) := by
  rcases hQuote with rfl | rfl
  · cases hStep
    refine ⟨rfl, ?_, fun other _ => rfl⟩
    split
    · trivial
    · trivial
  · cases hStep
    refine ⟨rfl, ?_, fun other _ => rfl⟩
    split
    · trivial
    · trivial

theorem DbState.Live.cases
    {q : DbState}
    (hLive : q.Live) :
    q = .plain ∨ (q = .squote ∨ q = .dquote) := by
  cases q with
  | plain => exact .inl rfl
  | squote => exact .inr (.inl rfl)
  | dquote => exact .inr (.inr rfl)
  | dashes => exact hLive.elim
  | line => exact hLive.elim
  | opening => exact hLive.elim
  | block => exact hLive.elim
  | closing => exact hLive.elim

theorem DbState.Comment.cases
    {q : DbState}
    (hComment : q.Comment) :
    q = .dashes ∨ q = .line := by
  cases q with
  | dashes => exact .inl rfl
  | line => exact .inr rfl
  | plain => exact hComment.elim
  | squote => exact hComment.elim
  | dquote => exact hComment.elim
  | opening => exact hComment.elim
  | block => exact hComment.elim
  | closing => exact hComment.elim

theorem db_lawful :
    Lawful dbStep .plain DbState.Live DbState.Comment where
  plain_live := trivial
  disjoint q hLive hComment := by
    rcases hComment.cases with rfl | rfl
    · exact hLive
    · exact hLive
  plain_cut next := rfl
  space q c next hLive hC := by
    have hNe := space_ne hC
    rcases hLive.cases with rfl | rfl | rfl
    · simp [dbStep, hNe]
    · simp [dbStep, hNe]
    · simp [dbStep, hNe]
  live q c next r act hLive hStep := by
    rcases hLive.cases with rfl | hQuote
    · exact dbStep_plain hStep
    · exact .inl (dbStep_quote hQuote hStep)
  comment q c next hComment := by
    rcases hComment.cases with rfl | rfl
    · exact .inl ⟨trivial, rfl⟩
    · by_cases hC : c = cp '\n'
      · subst hC
        exact .inr ⟨rfl, by decide⟩
      · simp [dbStep, hC, DbState.Comment]

/- What the scanner for Postgres does outside of literals and
comments. -/
theorem backendStep_plain
    {c : Nat} {next : Option Nat} {r : BackendState} {act : Take}
    (hStep : backendStep .plain c next = (r, act)) :
    (act = .keep ∧ r.Live ∧
        ∀ other, Harmless other →
          backendStep .plain c other = (r, .keep)) ∨
      (act = .drop ∧ BackendState.plain = .plain ∧ ¬ r.Live) ∨
      (act = .cut ∧ BackendState.plain = .plain ∧ r = .plain ∧
        c = semicolon) := by
  by_cases hDashes : c = cp '-' ∧ next = some (cp '-')
  · have hQuote : c ≠ cp '\'' := by
      rw [hDashes.1]
      decide
    simp only [backendStep, if_neg hQuote, if_pos hDashes,
      Prod.mk.injEq] at hStep
    rcases hStep with ⟨rfl, rfl⟩
    exact .inr (.inl ⟨rfl, rfl, fun hLive => hLive⟩)
  have hSame :
      ∀ other, Harmless other →
        backendStep .plain c other = (r, act) := by
    intro other hOther
    rw [backendStep_harmless c hOther, ← hStep]
    simp only [backendStep, if_neg hDashes]
  have hHere := hSame none (.inl rfl)
  rw [backendStep_harmless c (.inl rfl)] at hHere
  split at hHere
  · cases hHere
    exact .inl ⟨rfl, trivial, hSame⟩
  · split at hHere
    · rename_i hC
      cases hHere
      exact .inr (.inr ⟨rfl, rfl, rfl, hC⟩)
    · cases hHere
      exact .inl ⟨rfl, trivial, hSame⟩

theorem backendStep_str
    {r : BackendState} {c : Nat} {next : Option Nat} {act : Take}
    (hStep : backendStep .str c next = (r, act)) :
    act = .keep ∧ r.Live ∧
      ∀ other, Harmless other →
        backendStep .str c other = (r, .keep) := by
  cases hStep
  refine ⟨rfl, ?_, fun other _ => rfl⟩
  split
  · trivial
  · trivial

theorem BackendState.Live.cases
    {q : BackendState}
    (hLive : q.Live) :
    q = .plain ∨ q = .str := by
  cases q with
  | plain => exact .inl rfl
  | str => exact .inr rfl
  | line => exact hLive.elim

theorem BackendState.Comment.eq_line
    {q : BackendState}
    (hComment : q.Comment) :
    q = .line := by
  cases q with
  | line => rfl
  | plain => exact hComment.elim
  | str => exact hComment.elim

theorem backend_lawful :
    Lawful backendStep .plain BackendState.Live
      BackendState.Comment where
  plain_live := trivial
  disjoint q hLive hComment := by
    rw [hComment.eq_line] at hLive
    exact hLive
  plain_cut next := rfl
  space q c next hLive hC := by
    have hNe := space_ne hC
    rcases hLive.cases with rfl | rfl
    · simp [backendStep, hNe]
    · simp [backendStep, hNe]
  live q c next r act hLive hStep := by
    rcases hLive.cases with rfl | rfl
    · exact backendStep_plain hStep
    · exact .inl (backendStep_str hStep)
  comment q c next hComment := by
    rw [hComment.eq_line]
    by_cases hC : c = cp '\n'
    · subst hC
      exact .inr ⟨rfl, by decide⟩
    · simp [backendStep, hC, BackendState.Comment]

/- The scanner for Postgres has no other states. -/
theorem backend_tame
    (q : BackendState) (text : Str) :
    Tame backendStep BackendState.Live BackendState.Comment
      q text := by
  have hState : ∀ q : BackendState, q.Live ∨ q.Comment := by
    intro q
    cases q with
    | plain => exact .inl trivial
    | str => exact .inl trivial
    | line => exact .inr trivial
  induction text generalizing q with
  | nil => exact hState q
  | cons c rest ih => exact ⟨hState q, ih _⟩

---- Scripts That Both Read Alike

/- The state in `db`, by whether a line comment is read and
by the quote that is open. -/
def DbState.At
    (line : Bool)
    (d : Option Nat)
    (text : Str) : DbState → Prop
| .plain => line = false ∧ d = none
| .squote => line = false ∧ d = some (cp '\'')
| .dquote => line = false ∧ d = some (cp '"')
| .line => line = true ∧ d = none
| .dashes =>
    line = true ∧ d = none ∧ text.head? = some (cp '-')
| _ => False

/- The state in `db_backend`, likewise. -/
def BackendState.At
    (line : Bool)
    (s : Option Nat) : BackendState → Prop
| .plain => line = false ∧ s = none
| .str => line = false ∧ s = some (cp '\'')
| .line => line = true ∧ s = none

theorem DbState.At.state
    {line : Bool} {d : Option Nat} {text : Str} {q : DbState}
    (hAt : q.At line d text) :
    q.Live ∨ q.Comment := by
  cases q with
  | plain => exact .inl trivial
  | squote => exact .inl trivial
  | dquote => exact .inl trivial
  | dashes => exact .inr trivial
  | line => exact .inr trivial
  | opening => exact hAt.elim
  | block => exact hAt.elim
  | closing => exact hAt.elim

/- How a character is read where the scripts are read
alike. -/
structure Alike
    (line : Bool)
    (d s : Option Nat)
    (q : DbState)
    (r : BackendState)
    (c : Nat)
    (rest : Str)
    (act : Take) : Prop where
  db : (dbStep q c rest.head?).2 = act
  backend : (backendStep r c rest.head?).2 = act
  dbAt : (dbStep q c rest.head?).1.At line d rest
  backendAt : (backendStep r c rest.head?).1.At line s

/- Inside a line comment. -/
theorem alike_line
    {d s : Option Nat} {q : DbState} {r : BackendState} {c : Nat}
    {rest : Str}
    (hDb : q.At true d (c :: rest)) (hBackend : r.At true s) :
    ∃ act, Alike (c != cp '\n') none none q r c rest act := by
  have hR : r = .line := by
    cases r with
    | line => rfl
    | plain => exact nomatch hBackend.1
    | str => exact nomatch hBackend.1
  subst hR
  cases q with
  | line =>
      by_cases hC : c = cp '\n'
      · subst hC
        exact ⟨.keep, rfl, rfl, ⟨rfl, rfl⟩, ⟨rfl, rfl⟩⟩
      · have hLine : (c != cp '\n') = true := by simpa using hC
        refine ⟨.drop, ?_, ?_, ?_, ?_⟩
        · simp [dbStep, hC]
        · simp [backendStep, hC]
        · simp [dbStep, hC, hLine, DbState.At]
        · simp [backendStep, hC, hLine, BackendState.At]
  | dashes =>
      have hC : c = cp '-' := Option.some.inj hDb.2.2
      subst hC
      exact ⟨.drop, rfl, rfl, ⟨rfl, rfl⟩, ⟨rfl, rfl⟩⟩
  | plain => exact nomatch hDb.1
  | squote => exact nomatch hDb.1
  | dquote => exact nomatch hDb.1
  | opening => exact hDb.elim
  | block => exact hDb.elim
  | closing => exact hDb.elim

theorem DbState.At.cases
    {d : Option Nat} {text : Str} {q : DbState}
    (hAt : q.At false d text) :
    (q = .plain ∧ d = none) ∨
      (q = .squote ∧ d = some (cp '\'')) ∨
      (q = .dquote ∧ d = some (cp '"')) := by
  cases q with
  | plain => exact .inl ⟨rfl, hAt.2⟩
  | squote => exact .inr (.inl ⟨rfl, hAt.2⟩)
  | dquote => exact .inr (.inr ⟨rfl, hAt.2⟩)
  | dashes => exact nomatch hAt.1
  | line => exact nomatch hAt.1
  | opening => exact hAt.elim
  | block => exact hAt.elim
  | closing => exact hAt.elim

theorem BackendState.At.cases
    {s : Option Nat} {r : BackendState}
    (hAt : r.At false s) :
    (r = .plain ∧ s = none) ∨
      (r = .str ∧ s = some (cp '\'')) := by
  cases r with
  | plain => exact .inl ⟨rfl, hAt.2⟩
  | str => exact .inr ⟨rfl, hAt.2⟩
  | line => exact nomatch hAt.1

/- A character that is no mark, or is in a quote, is kept. -/
theorem db_keeps
    {d : Option Nat} {q : DbState} {c : Nat} {rest : Str}
    (hAt : q.At false d (c :: rest))
    (hMark : d = none →
      c ≠ cp ';' ∧
        ¬ (c = cp '-' ∧ rest.head? = some (cp '-')) ∧
        ¬ (c = cp '/' ∧ rest.head? = some (cp '*'))) :
    (dbStep q c rest.head?).2 = .keep ∧
      (dbStep q c rest.head?).1.At false
        (quoted [cp '\'', cp '"'] d c) rest := by
  rcases hAt.cases with ⟨rfl, rfl⟩ | ⟨rfl, rfl⟩ | ⟨rfl, rfl⟩
  · rcases hMark rfl with ⟨hSemi, hDashes, hOpen⟩
    simp only [dbStep, if_neg hDashes, if_neg hOpen,
      if_neg hSemi, quoted]
    by_cases hSquote : c = cp '\''
    · simp [hSquote, DbState.At]
    · by_cases hDquote : c = cp '"'
      · rw [if_neg hSquote, if_pos hDquote, if_pos (by simp
          [hDquote])]
        exact ⟨rfl, rfl, congrArg some hDquote⟩
      · simp [hSquote, hDquote, DbState.At]
  · by_cases hSquote : c = cp '\''
    · simp [dbStep, hSquote, quoted, DbState.At]
    · simp [dbStep, hSquote, quoted, DbState.At]
  · by_cases hDquote : c = cp '"'
    · simp [dbStep, hDquote, quoted, DbState.At]
    · simp [dbStep, hDquote, quoted, DbState.At]

theorem backend_keeps
    (c : Nat) (rest : Str) {s : Option Nat} {r : BackendState}
    (hAt : r.At false s)
    (hMark : s = none →
      c ≠ cp ';' ∧
        ¬ (c = cp '-' ∧ rest.head? = some (cp '-'))) :
    (backendStep r c rest.head?).2 = .keep ∧
      (backendStep r c rest.head?).1.At false
        (quoted [cp '\''] s c) := by
  rcases hAt.cases with ⟨rfl, rfl⟩ | ⟨rfl, rfl⟩
  · rcases hMark rfl with ⟨hSemi, hDashes⟩
    by_cases hSquote : c = cp '\''
    · simp [backendStep, hSquote, quoted, BackendState.At]
    · simp only [backendStep, if_neg hDashes, if_neg hSemi,
        if_neg hSquote]
      simp [hSquote, quoted, BackendState.At]
  · by_cases hSquote : c = cp '\''
    · simp [backendStep, hSquote, quoted, BackendState.At]
    · simp [backendStep, hSquote, quoted, BackendState.At]

/- A quote mark other than the one that is open changes
nothing. -/
theorem quoted_of_ne
    {marks : List Nat} {d : Option Nat} {c : Nat}
    (hMarks : c ∉ marks)
    (hOpen : ∀ mark, d = some mark → c ≠ mark) :
    quoted marks d c = d := by
  cases d with
  | none => simp [quoted, hMarks]
  | some mark => simp [quoted, hOpen mark rfl]

/- `;`, `-` and `/` are no quote marks. -/
theorem at_mark
    {d : Option Nat} {q : DbState} {text : Str} {c : Nat}
    (hAt : q.At false d text)
    (hC : c = cp ';' ∨ c = cp '-' ∨ c = cp '/') :
    quoted [cp '\'', cp '"'] d c = d := by
  apply quoted_of_ne
  · rcases hC with rfl | rfl | rfl
    · decide
    · decide
    · decide
  · rcases hAt.cases with ⟨_, rfl⟩ | ⟨_, rfl⟩ | ⟨_, rfl⟩
    · exact fun mark hMark => nomatch hMark
    · rintro mark hMark rfl
      cases hMark
      revert hC
      decide
    · rintro mark hMark rfl
      cases hMark
      revert hC
      decide

theorem at_backend_mark
    {s : Option Nat} {r : BackendState} {c : Nat}
    (hAt : r.At false s)
    (hC : c = cp ';' ∨ c = cp '-' ∨ c = cp '/') :
    quoted [cp '\''] s c = s := by
  apply quoted_of_ne
  · rcases hC with rfl | rfl | rfl
    · decide
    · decide
    · decide
  · rcases hAt.cases with ⟨_, rfl⟩ | ⟨_, rfl⟩
    · exact fun mark hMark => nomatch hMark
    · rintro mark hMark rfl
      cases hMark
      revert hC
      decide

/- The state outside of quotes. -/
theorem DbState.At.plain
    {text : Str} {q : DbState}
    (hAt : q.At false none text) :
    q = .plain := by
  rcases hAt.cases with ⟨hQ, _⟩ | ⟨_, hD⟩ | ⟨_, hD⟩
  · exact hQ
  · cases hD
  · cases hD

theorem BackendState.At.plain
    {r : BackendState}
    (hAt : r.At false none) :
    r = .plain := by
  rcases hAt.cases with ⟨hR, _⟩ | ⟨_, hS⟩
  · exact hR
  · cases hS

/- A mark that is in a quote for both is kept by both. -/
theorem alike_quoted
    {d s : Option Nat} {q : DbState} {r : BackendState} {c : Nat}
    {rest : Str}
    (hDb : q.At false d (c :: rest)) (hBackend : r.At false s)
    (hMark : c = cp ';' ∨ c = cp '-' ∨ c = cp '/') (hD : d ≠ none)
    (hS : s ≠ none) :
    Alike false d s q r c rest .keep := by
  have hKeep := db_keeps hDb fun hNone => absurd hNone hD
  have hKeep' := backend_keeps c rest hBackend
    fun hNone => absurd hNone hS
  rw [at_mark hDb hMark] at hKeep
  rw [at_backend_mark hBackend hMark] at hKeep'
  exact ⟨hKeep.1, hKeep'.1, hKeep.2, hKeep'.2⟩

/- Both start a line comment. -/
theorem alike_dashes
    {c : Nat} {rest : Str}
    (hC : c = cp '-') (hNext : rest.head? = some (cp '-')) :
    Alike true none none .plain .plain c rest .drop := by
  have hDb : dbStep .plain c rest.head? = (.dashes, .drop) := by
    rw [hC, hNext]
    rfl
  have hBackend : backendStep .plain c rest.head? = (.line, .drop) := by
    rw [hC, hNext]
    rfl
  refine ⟨by rw [hDb], by rw [hBackend], ?_, ?_⟩
  · rw [hDb]
    exact ⟨rfl, rfl, hNext⟩
  · rw [hBackend]
    exact ⟨rfl, rfl⟩

/- One character: both scanners read it alike, or it is a mark
that only one of them heeds, or a block comment opens. -/
theorem read_cases
    {line : Bool} {d s : Option Nat} {q : DbState}
    {r : BackendState} {c : Nat} {rest : Str}
    (hDb : q.At line d (c :: rest)) (hBackend : r.At line s) :
    (∃ line' d' s' act,
        Alike line' d' s' q r c rest act ∧
          uniformFrom line d s (c :: rest) =
            uniformFrom line' d' s' rest) ∨
      (line = false ∧ d.isSome ≠ s.isSome ∧
        (c = cp ';' ∨
          (c = cp '-' ∧ rest.head? = some (cp '-')))) ∨
      (line = false ∧ d = none ∧ c = cp '/' ∧
        rest.head? = some (cp '*')) := by
  cases line with
  | true =>
      rcases alike_line hDb hBackend with ⟨act, hAlike⟩
      exact .inl ⟨_, none, none, act, hAlike, rfl⟩
  | false =>
      by_cases hSemi : c = cp ';'
      · subst hSemi
        cases d with
        | none =>
            cases s with
            | none =>
                left
                rw [hDb.plain, hBackend.plain]
                exact ⟨false, none, none, .cut,
                  ⟨rfl, rfl, ⟨rfl, rfl⟩, ⟨rfl, rfl⟩⟩,
                  by simp [uniformFrom]⟩
            | some mark =>
                exact .inr (.inl ⟨rfl, by simp, .inl rfl⟩)
        | some quote =>
            cases s with
            | none =>
                exact .inr (.inl ⟨rfl, by simp, .inl rfl⟩)
            | some mark =>
                left
                exact ⟨false, some quote, some mark, .keep,
                  alike_quoted hDb hBackend (.inl rfl)
                    (by simp) (by simp),
                  by simp [uniformFrom]⟩
      · by_cases hDashes :
            c = cp '-' ∧ rest.head? = some (cp '-')
        · cases d with
          | none =>
              cases s with
              | none =>
                  left
                  rw [hDb.plain, hBackend.plain]
                  exact ⟨true, none, none, .drop,
                    alike_dashes hDashes.1 hDashes.2, by
                      rw [uniformFrom, if_neg Bool.false_ne_true,
                        if_neg hSemi, if_pos hDashes]
                      rfl⟩
              | some mark =>
                  exact .inr
                    (.inl ⟨rfl, by simp, .inr hDashes⟩)
          | some quote =>
              cases s with
              | none =>
                  exact .inr
                    (.inl ⟨rfl, by simp, .inr hDashes⟩)
              | some mark =>
                  left
                  refine ⟨false, some quote, some mark, .keep,
                    alike_quoted hDb hBackend
                      (.inr (.inl hDashes.1))
                      (by simp) (by simp), ?_⟩
                  rw [uniformFrom, if_neg Bool.false_ne_true,
                    if_neg hSemi, if_pos hDashes]
                  rfl
        · by_cases hOpen :
              d = none ∧ c = cp '/' ∧ rest.head? = some (cp '*')
          · exact .inr (.inr ⟨rfl, hOpen⟩)
          · left
            have hNot :
                ¬ (c = cp '/' ∧ rest.head? = some (cp '*') ∧
                  d = none) :=
              fun h => hOpen ⟨h.2.2, h.1, h.2.1⟩
            have hKeep := db_keeps hDb fun hD =>
              ⟨hSemi, hDashes, fun h => hOpen ⟨hD, h⟩⟩
            have hKeep' := backend_keeps c rest hBackend
              fun _ => ⟨hSemi, hDashes⟩
            refine ⟨_, _, _, .keep,
              ⟨hKeep.1, hKeep'.1, hKeep.2, hKeep'.2⟩, ?_⟩
            rw [uniformFrom, if_neg Bool.false_ne_true,
              if_neg hSemi, if_neg hDashes, if_neg hNot]

theorem not_uniform_mark
    {d s : Option Nat} {c : Nat} {rest : Str}
    (hSides : d.isSome ≠ s.isSome)
    (hMark : c = cp ';' ∨
      (c = cp '-' ∧ rest.head? = some (cp '-'))) :
    uniformFrom false d s (c :: rest) = false := by
  have hNot : (d.isSome == s.isSome) = false := by
    simpa using hSides
  rcases hMark with rfl | hDashes
  · rw [uniformFrom, if_neg Bool.false_ne_true, if_pos rfl,
      hNot, Bool.false_and]
  · have hSemi : c ≠ cp ';' := by
      rw [hDashes.1]
      decide
    rw [uniformFrom, if_neg Bool.false_ne_true, if_neg hSemi,
      if_pos hDashes, hNot, Bool.false_and]

theorem not_uniform_open
    {s : Option Nat} {c : Nat} {rest : Str}
    (hC : c = cp '/') (hNext : rest.head? = some (cp '*')) :
    uniformFrom false none s (c :: rest) = false := by
  have hSemi : c ≠ cp ';' := by
    rw [hC]
    decide
  have hDashes : ¬ (c = cp '-' ∧ rest.head? = some (cp '-')) := by
    rw [hC]
    exact fun h => absurd h.1 (by decide)
  rw [uniformFrom, if_neg Bool.false_ne_true, if_neg hSemi,
    if_neg hDashes, if_pos ⟨hC, hNext, rfl⟩]

/- A script that both read alike is split alike, and the
scanner for SQLite meets no block comment. -/
theorem split_of_uniform
    {line : Bool} {d s : Option Nat} {q : DbState}
    {r : BackendState} {text : Str}
    (st : Cutting) (hDb : q.At line d text) (hBackend : r.At line s)
    (hUniform : uniformFrom line d s text = true) :
    splitFrom dbStep q st text =
        splitFrom backendStep r st text ∧
      Tame dbStep DbState.Live DbState.Comment q text := by
  induction text generalizing line d s q r st with
  | nil => exact ⟨rfl, hDb.state⟩
  | cons c rest ih =>
      rcases read_cases hDb hBackend with
        ⟨line', d', s', act, hAlike, hRead⟩ |
          ⟨rfl, hSides, hMark⟩ | ⟨rfl, rfl, hC, hNext⟩
      · rw [hRead] at hUniform
        have hRest := ih (st.take c act) hAlike.dbAt
          hAlike.backendAt hUniform
        refine ⟨?_, hDb.state, hRest.2⟩
        rw [splitFrom, splitFrom, hAlike.db, hAlike.backend]
        exact hRest.1
      · rw [not_uniform_mark hSides hMark] at hUniform
        cases hUniform
      · rw [not_uniform_open hC hNext] at hUniform
        cases hUniform

/- A mark that only one scanner heeds makes them part. -/
theorem parted_by_mark
    {d s : Option Nat} {q : DbState} {r : BackendState} {c : Nat}
    {rest : Str} {st : Cutting}
    (hDb : q.At false d (c :: rest)) (hBackend : r.At false s)
    (hSides : d.isSome ≠ s.isSome)
    (hMark : c = cp ';' ∨
      (c = cp '-' ∧ rest.head? = some (cp '-')))
    (hDbInv : Resumes dbStep .plain DbState.Live
      DbState.Comment q st (c :: rest))
    (hInv : Resumes backendStep .plain BackendState.Live
      BackendState.Comment r st (c :: rest)) :
    splitFrom dbStep q st (c :: rest) ≠
      splitFrom backendStep r st (c :: rest) := by
  have hC : isSpace c = false := by
    rcases hMark with rfl | ⟨rfl, _⟩
    · decide
    · decide
  cases d with
  | none =>
      cases s with
      | none => exact absurd rfl hSides
      | some mark =>
          have hQ := hDb.plain
          subst hQ
          have hKeep := backend_keeps c rest hBackend
            fun hNone => nomatch hNone
          have hLive : r.Live ∧ r ≠ .plain := by
            rcases hBackend.cases with ⟨_, hNone⟩ | ⟨rfl, _⟩
            · cases hNone
            · exact ⟨trivial, by simp⟩
          have hBuf := marked_of_kept backend_lawful
            (hInv.live hLive.1) hLive.2
          apply Ne.symm
          apply splitFrom_ne db_lawful st.out hBuf hC hKeep.1
          rcases hMark with rfl | ⟨rfl, hNext⟩
          · exact .inl rfl
          · rw [hNext]
            exact .inr ⟨rfl, trivial⟩
  | some quote =>
      cases s with
      | some mark => exact absurd rfl hSides
      | none =>
          have hR := hBackend.plain
          subst hR
          have hKeep := db_keeps hDb fun hNone => nomatch hNone
          have hLive : q.Live ∧ q ≠ .plain := by
            rcases hDb.cases with
              ⟨_, hNone⟩ | ⟨rfl, _⟩ | ⟨rfl, _⟩
            · cases hNone
            · exact ⟨trivial, by simp⟩
            · exact ⟨trivial, by simp⟩
          have hBuf := marked_of_kept db_lawful
            (hDbInv.live hLive.1) hLive.2
          apply splitFrom_ne backend_lawful st.out hBuf hC
            hKeep.1
          rcases hMark with rfl | ⟨rfl, hNext⟩
          · exact .inl rfl
          · rw [hNext]
            exact .inr ⟨rfl, trivial⟩

/- Where a block comment opens, the scanner for Postgres goes
on with its mark. -/
theorem backend_block
    {s : Option Nat} {r : BackendState} {c : Nat} {rest : Str}
    (st : Cutting) (hBackend : r.At false s) (hC : c = cp '/')
    (hNext : rest.head? = some (cp '*')) :
    ∃ piece tail,
      splitFrom backendStep r st (c :: rest) =
          st.out ++ piece :: tail ∧
        st.buf.dropWhile isSpace ++ [cp '/', cp '*'] <+:
          piece := by
  rcases List.head?_eq_some_iff.mp hNext with ⟨more, rfl⟩
  subst hC
  have hFirst := backend_keeps (cp '/') (cp '*' :: more)
    hBackend
    fun _ => ⟨by decide, fun h => absurd h.1 (by decide)⟩
  have hSecond := backend_keeps (cp '*') more hFirst.2
    fun _ => ⟨by decide, fun h => absurd h.1 (by decide)⟩
  have hBuf : Marked (st.buf ++ [cp '/', cp '*']) :=
    ⟨cp '/', by simp, by decide⟩
  rcases splitFrom_started_out backendStep
    (backendStep (backendStep r (cp '/')
      (cp '*' :: more).head?).1 (cp '*') more.head?).1
    st.out hBuf more with ⟨later, tail, hLater⟩
  refine ⟨strip (st.buf ++ [cp '/', cp '*'] ++ later), tail,
    ?_, ?_⟩
  · rw [splitFrom, splitFrom, hFirst.1, hSecond.1, ← hLater]
    simp only [Cutting.take, List.append_assoc]
    rfl
  · exact prefix_strip_append_two st.buf (by decide)
      (by decide) later

/- Scripts that are split alike, and alike again when they
are joined, are read alike. -/
theorem uniform_of_same
    {line : Bool} {d s : Option Nat} {q : DbState}
    {r : BackendState} {st : Cutting} {text : Str}
    (hDb : q.At line d text) (hBackend : r.At line s)
    (hDbInv : Resumes dbStep .plain DbState.Live
      DbState.Comment q st text)
    (hInv : Resumes backendStep .plain BackendState.Live
      BackendState.Comment r st text)
    (hSame : splitFrom dbStep q st text =
      splitFrom backendStep r st text)
    (hJoin : splitStatements
        (joinWith [semicolon] (splitFrom dbStep q st text)) =
      splitFrom dbStep q st text) :
    uniformFrom line d s text = true := by
  induction text generalizing line d s q r st with
  | nil => rfl
  | cons c rest ih =>
      rcases read_cases hDb hBackend with
        ⟨line', d', s', act, hAlike, hRead⟩ |
          ⟨rfl, hSides, hMark⟩ | ⟨rfl, rfl, hC, hNext⟩
      · have hDbStep := resumes_step db_lawful hDb.state hDbInv
        have hStep := resumes_step backend_lawful
          (backend_tame r (c :: rest)).1 hInv
        rw [splitFrom, hAlike.db] at hSame hJoin
        rw [splitFrom, hAlike.backend] at hSame
        rw [hAlike.db] at hDbStep
        rw [hAlike.backend] at hStep
        rw [hRead]
        exact ih hAlike.dbAt hAlike.backendAt hDbStep hStep
          hSame hJoin
      · exact absurd hSame
          (parted_by_mark hDb hBackend hSides hMark hDbInv hInv)
      · rcases backend_block st hBackend hC hNext with
          ⟨piece, tail, hPiece, hStart⟩
        have hQ := hDb.plain
        subst hQ
        rw [hSame, hPiece] at hJoin
        rw [← hC] at hStart
        have hDrop : (dbStep .plain c (some (cp '*'))).2 =
            .drop := by
          rw [hC]
          rfl
        exact absurd hJoin
          (split_joinWith_ne db_lawful hDbInv hDrop hStart)

/- The scanners split a script into the same statements, and
both split these, joined by semicolons, into the same ones
again, exactly where they read it alike. -/
theorem splitters_agree_iff (script : Str) :
    (splitStatements script = backendStatements script ∧
      splitStatements
          (joinWith [semicolon] (splitStatements script)) =
        splitStatements script ∧
      backendStatements
          (joinWith [semicolon] (splitStatements script)) =
        splitStatements script) ↔
      Uniform script := by
  constructor
  · rintro ⟨hSame, hJoin, _⟩
    exact uniform_of_same (q := .plain) (r := .plain)
      ⟨rfl, rfl⟩ ⟨rfl, rfl⟩
      (resumes_start dbStep script trivial
        fun hComment => hComment)
      (resumes_start backendStep script trivial
        fun hComment => hComment)
      hSame hJoin
  · intro hUniform
    have hRead := split_of_uniform (q := .plain) (r := .plain)
      ⟨[], []⟩ ⟨rfl, rfl⟩ ⟨rfl, rfl⟩ hUniform
    have hSame : splitStatements script =
        backendStatements script := hRead.1
    refine ⟨hSame, split_joined db_lawful hRead.2, ?_⟩
    rw [hSame]
    exact split_joined backend_lawful (backend_tame _ _)

/- A semicolon in a block comment splits a statement for
Postgres only. -/
theorem block_comment_split :
    ¬ (splitStatements (lit "/* a;b */ SELECT 1") =
        backendStatements (lit "/* a;b */ SELECT 1") ∧
      splitStatements (joinWith [semicolon]
          (splitStatements (lit "/* a;b */ SELECT 1"))) =
        splitStatements (lit "/* a;b */ SELECT 1") ∧
      backendStatements (joinWith [semicolon]
          (splitStatements (lit "/* a;b */ SELECT 1"))) =
        splitStatements (lit "/* a;b */ SELECT 1")) := by
  rintro ⟨hSame, _⟩
  revert hSame
  decide

end ThreatOrbit.Platform

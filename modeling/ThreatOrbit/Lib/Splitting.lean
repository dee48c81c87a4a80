import ThreatOrbit.Lib.Python

/-
  Splitting a text at the marks that a scanner finds.

  A scanner walks over a text with a state and one character
  of lookahead. It keeps a character, drops it or cuts there;
  the pieces between the cuts are stripped, and the blank
  ones are left out.

  Key definitions:
    * `Take`, `Scan`, `Cutting`
    * `splitFrom`, `split`
    * `kept`
    * `Tame`, `Lawful`
-/

---- Scanners

namespace Lib

section

/- What a scanner does with a character. -/
inductive Take where
| keep
| drop
| cut
deriving DecidableEq, Repr

/- A scanner: its next state, by a character and the one
after it. -/
abbrev Scan (σ : Type) :=
  σ → Nat → Option Nat → σ × Take

/- The piece that is read and the pieces that are done. -/
structure Cutting where
  buf : Str
  out : List Str
deriving DecidableEq, Repr

/- The pieces with the one that is read, unless it is
blank. -/
def Cutting.flush (s : Cutting) : List Str :=
  if strip s.buf = [] then s.out else s.out ++ [strip s.buf]

def Cutting.take (s : Cutting) (c : Nat) : Take → Cutting
| .keep => { s with buf := s.buf ++ [c] }
| .drop => s
| .cut => ⟨[], s.flush⟩

variable {σ : Type}

/- The pieces of the rest of a text. -/
@[grind =]
def splitFrom
    (scan : Scan σ) :
    σ → Cutting → Str → List Str
| _, s, [] => s.flush
| q, s, c :: rest =>
    splitFrom scan (scan q c rest.head?).1
      (s.take c (scan q c rest.head?).2) rest

/- The pieces of a text. -/
def split (scan : Scan σ) (q : σ) (text : Str) : List Str :=
  splitFrom scan q ⟨[], []⟩ text

/- The state after a text that is kept as a whole, with the
character that follows it. -/
@[grind =]
def kept
    (scan : Scan σ) :
    σ → Str → Option Nat → Option σ
| q, [], _ => some q
| q, c :: rest, next =>
    match scan q c (rest.head?.or next) with
    | (r, .keep) => kept scan r rest next
    | _ => none

variable {scan : Scan σ}

theorem kept_append
    (q : σ) (a b : Str) (next : Option Nat) :
    kept scan q (a ++ b) next =
      (kept scan q a (b.head?.or next)).bind
        fun r => kept scan r b next := by
  induction a generalizing q with
  | nil => rfl
  | cons c rest ih =>
      have hHead :
          (rest ++ b).head?.or next =
            rest.head?.or (b.head?.or next) := by
        cases rest with
        | nil => rfl
        | cons d more => rfl
      rw [List.cons_append, kept, kept, hHead]
      rcases hStep : scan q c (rest.head?.or (b.head?.or next))
        with ⟨r, act⟩
      cases act with
      | keep => exact ih r
      | drop => rfl
      | cut => rfl

/- A text that is kept is put into the piece. -/
theorem splitFrom_kept
    (s : Cutting) (rest : Str) {q r : σ} {text : Str}
    (hKept : kept scan q text rest.head? = some r) :
    splitFrom scan q s (text ++ rest) =
      splitFrom scan r ⟨s.buf ++ text, s.out⟩ rest := by
  induction text generalizing q s with
  | nil =>
      cases hKept
      rw [List.nil_append, List.append_nil]
  | cons c more ih =>
      have hHead : (more ++ rest).head? = more.head?.or rest.head? := by
        cases more with
        | nil => rfl
        | cons d later => rfl
      rw [kept] at hKept
      rw [List.cons_append, splitFrom, hHead]
      rcases hStep : scan q c (more.head?.or rest.head?)
        with ⟨t, act⟩
      rw [hStep] at hKept
      cases act with
      | keep =>
          rw [ih _ hKept]
          simp only [Cutting.take, List.append_assoc,
            List.singleton_append]
      | drop => cases hKept
      | cut => cases hKept

end

---- What Is Done Stays

section

variable {σ : Type} (scan : Scan σ)

theorem flush_append (buf : Str) (before out : List Str) :
    Cutting.flush ⟨buf, before ++ out⟩ =
      before ++ Cutting.flush ⟨buf, out⟩ := by
  unfold Cutting.flush
  simp only
  split
  · rfl
  · rw [List.append_assoc]

/- Pieces that are done come first. -/
theorem splitFrom_out
    (q : σ) (buf : Str) (before out : List Str) (text : Str) :
    splitFrom scan q ⟨buf, before ++ out⟩ text =
      before ++ splitFrom scan q ⟨buf, out⟩ text := by
  induction text generalizing q buf out with
  | nil => exact flush_append buf before out
  | cons c rest ih =>
      rw [splitFrom, splitFrom]
      cases (scan q c rest.head?).2 with
      | keep => exact ih _ _ _
      | drop => exact ih _ _ _
      | cut =>
          simp only [Cutting.take, flush_append]
          exact ih _ _ _

/- A text that is not blank. -/
def Marked (buf : Str) : Prop :=
  ∃ c ∈ buf, isSpace c = false

theorem Marked.append
    {buf : Str}
    (hBuf : Marked buf) (more : Str) :
    Marked (buf ++ more) := by
  rcases hBuf with ⟨c, hMem, hC⟩
  exact ⟨c, List.mem_append_left more hMem, hC⟩

theorem dropWhile_append_of_marked
    {buf : Str}
    (hBuf : Marked buf) (more : Str) :
    (buf ++ more).dropWhile isSpace =
      buf.dropWhile isSpace ++ more := by
  rw [List.dropWhile_append]
  cases hRest : buf.dropWhile isSpace with
  | nil =>
      rcases hBuf with ⟨c, hMem, hC⟩
      rw [List.dropWhile_eq_nil_iff] at hRest
      rw [hRest c hMem] at hC
      cases hC
  | cons c rest => rfl

/- A stripped text starts as the text does, its first white
space left out. -/
theorem strip_append_spaces
    {buf : Str}
    (hBuf : Marked buf) (more : Str) :
    strip (buf ++ more) <+: buf.dropWhile isSpace ++ more := by
  rw [← dropWhile_append_of_marked hBuf]
  exact List.rdropWhile_prefix isSpace _

theorem prefix_rdropWhile
    (front : Str) {c : Nat} (hC : isSpace c = false) (more : Str) :
    front ++ [c] <+: (front ++ c :: more).rdropWhile isSpace := by
  have hBack :
      (front ++ c :: more).reverse =
        more.reverse ++ (c :: front.reverse) := by
    simp
  unfold List.rdropWhile
  rw [hBack, List.dropWhile_append]
  split
  · rw [List.dropWhile_cons, hC]
    simp
  · rw [List.reverse_append, List.reverse_cons,
      List.reverse_reverse]
    exact List.prefix_append _ _

theorem dropWhile_append_mark
    (buf : Str) {c : Nat} (hC : isSpace c = false) (more : Str) :
    (buf ++ c :: more).dropWhile isSpace =
      buf.dropWhile isSpace ++ c :: more := by
  rw [List.dropWhile_append]
  cases hRest : buf.dropWhile isSpace with
  | nil =>
      rw [List.isEmpty_nil, if_pos rfl, List.dropWhile_cons,
        hC]
      rfl
  | cons d rest => rfl

/- The first mark after a text is kept by stripping. -/
theorem prefix_strip_append
    (buf : Str) {c : Nat} (hC : isSpace c = false) (more : Str) :
    buf.dropWhile isSpace ++ [c] <+:
      strip (buf ++ c :: more) := by
  change _ <+: ((buf ++ c :: more).dropWhile isSpace).rdropWhile
    isSpace
  rw [dropWhile_append_mark buf hC]
  exact prefix_rdropWhile _ hC more

theorem prefix_strip_append_two
    (buf : Str) {c d : Nat} (hC : isSpace c = false)
    (hD : isSpace d = false) (more : Str) :
    buf.dropWhile isSpace ++ [c, d] <+:
      strip (buf ++ [c, d] ++ more) := by
  have hBoth := prefix_strip_append (buf ++ [c]) hD more
  rw [dropWhile_append_mark buf hC] at hBoth
  simpa using hBoth

theorem strip_ne_nil
    {buf : Str}
    (hBuf : Marked buf) :
    strip buf ≠ [] := by
  rcases hBuf with ⟨c, hMem, hC⟩
  rcases List.append_of_mem hMem with ⟨front, back, rfl⟩
  intro hNil
  have hPrefix := prefix_strip_append front hC back
  rw [hNil, List.prefix_nil] at hPrefix
  exact absurd hPrefix (by simp)

/- A piece that is not blank becomes the next one. -/
theorem splitFrom_started
    (q : σ) {buf : Str} (hBuf : Marked buf) (text : Str) :
    ∃ more tail,
      splitFrom scan q ⟨buf, []⟩ text =
        strip (buf ++ more) :: tail := by
  induction text generalizing q buf with
  | nil =>
      refine ⟨[], [], ?_⟩
      rw [List.append_nil, splitFrom, Cutting.flush,
        if_neg (strip_ne_nil hBuf)]
      rfl
  | cons c rest ih =>
      rw [splitFrom]
      cases (scan q c rest.head?).2 with
      | keep =>
          rcases ih (scan q c rest.head?).1 (hBuf.append [c])
            with ⟨more, tail, hMore⟩
          refine ⟨c :: more, tail, ?_⟩
          rw [List.append_assoc] at hMore
          exact hMore
      | drop => exact ih _ hBuf
      | cut =>
          refine ⟨[], splitFrom scan (scan q c rest.head?).1
            ⟨[], []⟩ rest, ?_⟩
          simp only [Cutting.take, Cutting.flush,
            if_neg (strip_ne_nil hBuf), List.append_nil]
          exact splitFrom_out scan _ [] [strip buf] [] rest

/- The characters of some pieces, with one for each end. -/
def weight (pieces : List Str) : Nat :=
  (pieces.map fun p => p.length + 1).sum

theorem weight_append (a b : List Str) :
    weight (a ++ b) = weight a + weight b := by
  unfold weight
  rw [List.map_append, List.sum_append]

theorem length_strip_le (s : Str) :
    (strip s).length ≤ s.length := by
  have hBack := (List.rdropWhile_prefix isSpace
    (s.dropWhile isSpace)).length_le
  have hFront := (List.dropWhile_suffix isSpace (l := s)).length_le
  exact le_trans hBack hFront

theorem weight_flush_le (s : Cutting) :
    weight s.flush ≤ weight s.out + s.buf.length + 1 := by
  unfold Cutting.flush
  split
  · omega
  · rw [weight_append]
    have hLe := length_strip_le s.buf
    simp only [weight, List.map_cons, List.map_nil,
      List.sum_cons, List.sum_nil]
    omega

/- Splitting adds no characters. -/
theorem weight_splitFrom_le
    (q : σ) (s : Cutting) (text : Str) :
    weight (splitFrom scan q s text) ≤
      weight s.out + s.buf.length + text.length + 1 := by
  induction text generalizing q s with
  | nil =>
      rw [splitFrom, List.length_nil]
      exact weight_flush_le s
  | cons c rest ih =>
      rw [splitFrom]
      refine le_trans (ih _ _) ?_
      rw [List.length_cons]
      cases (scan q c rest.head?).2 with
      | keep =>
          simp only [Cutting.take, List.length_append,
            List.length_singleton]
          omega
      | drop =>
          simp only [Cutting.take]
          omega
      | cut =>
          have hFlush := weight_flush_le s
          simp only [Cutting.take, List.length_nil]
          omega

end

---- Scanning Again

section

variable {σ : Type}

/- The mark between the pieces of a joined text. -/
abbrev semicolon : Nat :=
  cp ';'

/- What may follow a piece in a joined text, or a character
whose follower was dropped. -/
def Harmless (next : Option Nat) : Prop :=
  next = none ∨ next = some semicolon ∨
    ∃ c, next = some c ∧ isSpace c = true

/- The states of a scanner: `plain` outside of everything,
`Live` where characters are kept, `Comment` where they are
dropped up to a line break. -/
structure Lawful
    (scan : Scan σ)
    (plain : σ)
    (Live Comment : σ → Prop) : Prop where
  plain_live : Live plain
  disjoint : ∀ q, Live q → ¬ Comment q
  plain_cut :
    ∀ next, scan plain semicolon next = (plain, .cut)
  space :
    ∀ q c next, Live q → isSpace c = true →
      scan q c next = (q, .keep)
  live :
    ∀ q c next r act, Live q → scan q c next = (r, act) →
      (act = .keep ∧ Live r ∧
          ∀ other, Harmless other →
            scan q c other = (r, .keep)) ∨
        (act = .drop ∧ q = plain ∧ ¬ Live r) ∨
        (act = .cut ∧ q = plain ∧ r = plain ∧ c = semicolon)
  comment :
    ∀ q c next, Comment q →
      (Comment (scan q c next).1 ∧
          (scan q c next).2 = .drop) ∨
        (scan q c next = (plain, .keep) ∧ isSpace c = true)

/- The scanner comes to no state but these. -/
def Tame
    (scan : Scan σ)
    (Live Comment : σ → Prop) :
    σ → Str → Prop
| q, [] => Live q ∨ Comment q
| q, c :: rest =>
    (Live q ∨ Comment q) ∧
      Tame scan Live Comment (scan q c rest.head?).1 rest

variable {scan : Scan σ} {plain : σ}
variable {Live Comment : σ → Prop}

variable (hLaw : Lawful scan plain Live Comment)
include hLaw

theorem Lawful.keep
    {q r : σ} {c : Nat} {next : Option Nat}
    (hLive : Live q) (hStep : scan q c next = (r, .keep)) :
    Live r ∧
      ∀ other, Harmless other → scan q c other = (r, .keep) := by
  rcases hLaw.live q c next r .keep hLive hStep with
    ⟨_, hKeep⟩ | ⟨hAct, _⟩ | ⟨hAct, _⟩
  · exact hKeep
  · cases hAct
  · cases hAct

theorem Lawful.drop
    {q r : σ} {c : Nat} {next : Option Nat}
    (hLive : Live q) (hStep : scan q c next = (r, .drop)) :
    q = plain ∧ ¬ Live r := by
  rcases hLaw.live q c next r .drop hLive hStep with
    ⟨hAct, _⟩ | ⟨_, hDrop⟩ | ⟨hAct, _⟩
  · cases hAct
  · exact hDrop
  · cases hAct

theorem Lawful.cut
    {q r : σ} {c : Nat} {next : Option Nat}
    (hLive : Live q) (hStep : scan q c next = (r, .cut)) :
    q = plain ∧ r = plain ∧ c = semicolon := by
  rcases hLaw.live q c next r .cut hLive hStep with
    ⟨hAct, _⟩ | ⟨hAct, _⟩ | ⟨_, hCut⟩
  · cases hAct
  · cases hAct
  · exact hCut

theorem Lawful.kept_live
    {q r : σ} {text : Str} {next : Option Nat}
    (hLive : Live q) (hKept : kept scan q text next = some r) :
    Live r := by
  induction text generalizing q with
  | nil =>
      cases hKept
      exact hLive
  | cons c rest ih =>
      rw [kept] at hKept
      rcases hStep : scan q c (rest.head?.or next) with ⟨t, act⟩
      rw [hStep] at hKept
      cases act with
      | keep =>
          exact ih (hLaw.keep hLive hStep).1 hKept
      | drop => cases hKept
      | cut => cases hKept

/- A text that is kept before something is kept before
anything harmless. -/
theorem Lawful.kept_harmless
    {q r : σ} {text : Str} {next other : Option Nat}
    (hLive : Live q) (hOther : Harmless other)
    (hKept : kept scan q text next = some r) :
    kept scan q text other = some r := by
  induction text generalizing q with
  | nil => exact hKept
  | cons c rest ih =>
      rw [kept] at hKept ⊢
      rcases hStep : scan q c (rest.head?.or next) with ⟨t, act⟩
      rw [hStep] at hKept
      cases act with
      | keep =>
          have hKeep := hLaw.keep hLive hStep
          have hSame : scan q c (rest.head?.or other) = (t, .keep) := by
            cases rest with
            | nil => exact hKeep.2 other hOther
            | cons d more => exact hStep
          rw [hSame]
          exact ih hKeep.1 hKept
      | drop => cases hKept
      | cut => cases hKept

theorem Lawful.kept_space
    {q : σ} {blank : Str}
    (next : Option Nat) (hLive : Live q)
    (hBlank : ∀ c ∈ blank, isSpace c = true) :
    kept scan q blank next = some q := by
  induction blank with
  | nil => rfl
  | cons c rest ih =>
      have hC := hBlank c List.mem_cons_self
      rw [kept, hLaw.space q c _ hLive hC]
      exact ih fun d hD => hBlank d (List.mem_cons_of_mem c hD)

/- White space before a piece does not matter. -/
theorem Lawful.kept_dropWhile
    {text : Str} {r : σ} {next : Option Nat}
    (hKept : kept scan plain text next = some r) :
    kept scan plain (text.dropWhile isSpace) next = some r := by
  rw [← List.takeWhile_append_dropWhile (p := isSpace)
    (l := text), kept_append] at hKept
  rw [hLaw.kept_space _ hLaw.plain_live fun c hC =>
    List.mem_takeWhile_imp hC] at hKept
  exact hKept

/- White space around a piece does not matter. -/
theorem Lawful.kept_strip
    {text : Str} {r : σ}
    (hKept : kept scan plain text none = some r) :
    kept scan plain (strip text) none = some r := by
  have hFront := hLaw.kept_dropWhile hKept
  change kept scan plain
    ((text.dropWhile isSpace).rdropWhile isSpace) none = some r
  rw [← List.rdropWhile_append_rtakeWhile
    (p := isSpace) (l := text.dropWhile isSpace),
    kept_append] at hFront
  generalize (text.dropWhile isSpace).rdropWhile isSpace =
    front at hFront ⊢
  have hBack : ∀ c ∈ (text.dropWhile isSpace).rtakeWhile
      isSpace, isSpace c = true :=
    fun c hC => List.mem_rtakeWhile_imp hC
  generalize (text.dropWhile isSpace).rtakeWhile isSpace =
    back at hFront hBack
  rcases hState : kept scan plain front (back.head?.or none)
    with _ | t
  · rw [hState] at hFront
    cases hFront
  · rw [hState, Option.bind_some,
      hLaw.kept_space _
        (hLaw.kept_live hLaw.plain_live hState) hBack]
      at hFront
    rw [← hFront]
    exact hLaw.kept_harmless hLaw.plain_live (.inl rfl) hState

end

---- Joining The Pieces

section

variable {σ : Type} {scan : Scan σ} {plain : σ}
variable {Live Comment : σ → Prop}

/- A piece as stripping leaves it, which keeps the scanner
going up to a state. -/
structure Piece
    (scan : Scan σ)
    (plain r : σ)
    (p : Str) : Prop where
  stripped : strip p = p
  some : p ≠ []
  kept : Lib.kept scan plain p none = Option.some r

/- Scanned again, the pieces that are done end where a cut may
follow, and the piece that is read leads to the state that
the scanner is in. -/
structure Resumes
    (scan : Scan σ)
    (plain : σ)
    (Live Comment : σ → Prop)
    (q : σ)
    (s : Cutting)
    (rest : Str) : Prop where
  done : ∀ p ∈ s.out, Piece scan plain plain p
  live : Live q → kept scan plain s.buf rest.head? = some q
  comment :
    Comment q → ∀ next, Harmless next →
      kept scan plain s.buf next = some plain

theorem resumes_start
    (scan : Scan σ) (text : Str) :
    Live plain → ¬ Comment plain →
      Resumes scan plain Live Comment plain ⟨[], []⟩ text := by
  intro _ hNot
  exact ⟨List.forall_mem_nil _, fun _ => rfl,
    fun hComment => absurd hComment hNot⟩

/- The piece that is flushed. -/
theorem piece_strip
    (hLaw : Lawful scan plain Live Comment) {buf : Str} {r : σ}
    (hKept : kept scan plain buf none = some r)
    (hSome : strip buf ≠ []) :
    Piece scan plain r (strip buf) :=
  ⟨strip_strip buf, hSome, hLaw.kept_strip hKept⟩

theorem mem_flush
    {s : Cutting} {p : Str}
    (hMem : p ∈ s.flush) :
    p ∈ s.out ∨ (p = strip s.buf ∧ strip s.buf ≠ []) := by
  unfold Cutting.flush at hMem
  split at hMem
  · exact .inl hMem
  · rename_i hSome
    rcases List.mem_append.mp hMem with hOut | hLast
    · exact .inl hOut
    · exact .inr ⟨List.mem_singleton.mp hLast, hSome⟩

/- One character. -/
theorem resumes_step
    (hLaw : Lawful scan plain Live Comment)
    {q : σ} {s : Cutting} {c : Nat} {rest : Str}
    (hState : Live q ∨ Comment q)
    (hInv : Resumes scan plain Live Comment q s (c :: rest)) :
    Resumes scan plain Live Comment
      (scan q c rest.head?).1
      (s.take c (scan q c rest.head?).2) rest := by
  rcases hStep : scan q c rest.head? with ⟨r, act⟩
  rcases hState with hLive | hComment
  · have hRead := hInv.live hLive
    cases act with
    | keep =>
        have hLive' := (hLaw.keep hLive hStep).1
        refine ⟨hInv.done, fun _ => ?_, fun hOther =>
          absurd hOther (hLaw.disjoint r hLive')⟩
        change kept scan plain (s.buf ++ [c]) rest.head? = _
        rw [kept_append]
        change (kept scan plain s.buf (some c)).bind _ = _
        rw [List.head?_cons] at hRead
        rw [hRead, Option.bind_some, kept, List.head?_nil,
          Option.none_or, hStep]
        rfl
    | drop =>
        rcases hLaw.drop hLive hStep with ⟨hQ, hNot⟩
        rw [hQ] at hRead
        exact ⟨hInv.done, fun hSame => absurd hSame hNot,
          fun _ next hNext => hLaw.kept_harmless
            hLaw.plain_live hNext hRead⟩
    | cut =>
        rcases hLaw.cut hLive hStep with
          ⟨hQ, hR, hC⟩
        rw [hQ] at hRead
        have hNone := hLaw.kept_harmless hLaw.plain_live
          (.inl rfl) hRead
        refine ⟨fun p hP => ?_, fun _ => ?_, fun hOther => ?_⟩
        · rcases mem_flush hP with hOut | ⟨rfl, hSome⟩
          · exact hInv.done p hOut
          · exact piece_strip hLaw hNone hSome
        · rw [hR]
          rfl
        · rw [hR] at hOther
          exact absurd hOther
            (hLaw.disjoint plain hLaw.plain_live)
  · have hRead := hInv.comment hComment
    rcases hLaw.comment q c rest.head? hComment with
      ⟨hStay, hDrop⟩ | ⟨hBack, hSpace⟩
    · rw [hStep] at hStay hDrop
      cases hDrop
      refine ⟨hInv.done, fun hLive => ?_, fun _ => hRead⟩
      exact absurd hStay (hLaw.disjoint r hLive)
    · rw [hStep] at hBack
      cases hBack
      refine ⟨hInv.done, fun _ => ?_, fun hOther => ?_⟩
      · change kept scan plain (s.buf ++ [c]) rest.head? = _
        rw [kept_append]
        have hHere := hRead (some c) (.inr (.inr ⟨c, rfl, hSpace⟩))
        change (kept scan plain s.buf (some c)).bind _ = _
        rw [hHere, Option.bind_some]
        apply hLaw.kept_space _ hLaw.plain_live
        intro d hD
        rw [List.mem_singleton.mp hD]
        exact hSpace
      · exact absurd hOther
          (hLaw.disjoint plain hLaw.plain_live)

/- The pieces of a text: each is kept up to where a cut may
follow, and the last one is kept. -/
theorem pieces_splitFrom
    (hLaw : Lawful scan plain Live Comment)
    {q : σ} {s : Cutting} {text : Str}
    (hTame : Tame scan Live Comment q text)
    (hInv : Resumes scan plain Live Comment q s text) :
    splitFrom scan q s text = [] ∨
      ∃ front last r,
        splitFrom scan q s text = front ++ [last] ∧
          (∀ p ∈ front, Piece scan plain plain p) ∧
          Piece scan plain r last := by
  induction text generalizing q s with
  | nil =>
      have hRead : ∃ r, kept scan plain s.buf none = some r := by
        rcases hTame with hLive | hComment
        · exact ⟨q, hInv.live hLive⟩
        · exact ⟨plain, hInv.comment hComment none (.inl rfl)⟩
      rcases hRead with ⟨r, hRead⟩
      rw [splitFrom, Cutting.flush]
      split
      · rcases List.eq_nil_or_concat s.out with hNil | ⟨L, p, hL⟩
        · exact .inl hNil
        · rw [List.concat_eq_append] at hL
          refine .inr ⟨L, p, plain, hL, fun x hX => ?_, ?_⟩
          · exact hInv.done x
              (by rw [hL]; exact List.mem_append_left _ hX)
          · exact hInv.done p (by rw [hL]; simp)
      · rename_i hSome
        exact .inr ⟨s.out, strip s.buf, r, rfl, hInv.done,
          piece_strip hLaw hRead hSome⟩
  | cons c rest ih =>
      rw [splitFrom]
      exact ih hTame.2 (resumes_step hLaw hTame.1 hInv)

theorem flush_piece
    {p : Str} {out : List Str}
    (hStripped : strip p = p) (hSome : p ≠ []) :
    Cutting.flush ⟨p, out⟩ = out ++ [p] := by
  unfold Cutting.flush
  rw [hStripped, if_neg hSome]

theorem joinWith_cons
    (sep p : Str) {more : List Str} (hMore : more ≠ []) :
    joinWith sep (p :: more) = p ++ sep ++ joinWith sep more := by
  cases more with
  | nil => exact absurd rfl hMore
  | cons next rest => rfl

/- The pieces in front are done when the scanner comes to the
rest of a joined text. -/
theorem splitFrom_joinWith
    (hLaw : Lawful scan plain Live Comment) {front more : List Str}
    (out : List Str)
    (hFront : ∀ p ∈ front, Piece scan plain plain p)
    (hMore : more ≠ []) :
    splitFrom scan plain ⟨[], out⟩
        (joinWith [semicolon] (front ++ more)) =
      splitFrom scan plain ⟨[], out ++ front⟩
        (joinWith [semicolon] more) := by
  induction front generalizing out with
  | nil => rw [List.nil_append, List.append_nil]
  | cons p later ih =>
      rw [List.forall_mem_cons] at hFront
      have hSome : later ++ more ≠ [] := by
        intro hNil
        exact hMore (List.append_eq_nil_iff.mp hNil).2
      have hRead := splitFrom_kept ⟨[], out⟩
        (semicolon :: joinWith [semicolon] (later ++ more))
        (hLaw.kept_harmless hLaw.plain_live
          (.inr (.inl rfl)) hFront.1.kept)
      rw [List.cons_append, joinWith_cons _ p hSome,
        List.append_assoc, List.singleton_append, hRead,
        splitFrom, hLaw.plain_cut]
      simp only [Cutting.take, List.nil_append,
        flush_piece hFront.1.stripped hFront.1.some]
      rw [ih _ hFront.2, List.append_assoc,
        List.singleton_append]

/- The pieces joined are split into the same pieces. -/
theorem split_joinWith
    (hLaw : Lawful scan plain Live Comment)
    {front : List Str} {last : Str} {r : σ}
    (hFront : ∀ p ∈ front, Piece scan plain plain p)
    (hLast : Piece scan plain r last) :
    split scan plain (joinWith [semicolon] (front ++ [last])) =
      front ++ [last] := by
  have hRead := splitFrom_kept ⟨[], front⟩ [] hLast.kept
  rw [List.append_nil] at hRead
  unfold split
  rw [splitFrom_joinWith hLaw [] hFront
    (List.cons_ne_nil last []), List.nil_append, joinWith,
    hRead, splitFrom]
  exact flush_piece hLast.stripped hLast.some

/- Splitting is stable: the pieces joined are split into the
same pieces. -/
theorem split_joined
    (hLaw : Lawful scan plain Live Comment) {text : Str}
    (hTame : Tame scan Live Comment plain text) :
    split scan plain
        (joinWith [semicolon] (split scan plain text)) =
      split scan plain text := by
  have hStart := resumes_start scan text hLaw.plain_live
    (hLaw.disjoint plain hLaw.plain_live)
  rcases pieces_splitFrom hLaw hTame hStart with
    hNil | ⟨front, last, r, hAll, hFront, hLast⟩
  · have hEmpty : split scan plain text = [] := hNil
    rw [hEmpty]
    rfl
  · have hPieces : split scan plain text = front ++ [last] :=
      hAll
    rw [hPieces]
    exact split_joinWith hLaw hFront hLast

end

---- Scanners That Part

variable {σ : Type} (scan : Scan σ)

/- The pieces that follow those that are done. -/
theorem splitFrom_started_out
    (q : σ) {buf : Str} (out : List Str) (hBuf : Marked buf)
    (text : Str) :
    ∃ more tail,
      splitFrom scan q ⟨buf, out⟩ text =
        out ++ strip (buf ++ more) :: tail := by
  rcases splitFrom_started scan q hBuf text with
    ⟨more, tail, hMore⟩
  have hOut := splitFrom_out scan q buf out [] text
  rw [List.append_nil] at hOut
  exact ⟨more, tail, by rw [hOut, hMore]⟩

variable {scan}

/- A character that is kept comes next in the piece. -/
theorem splitFrom_keep
    {q : σ} {buf rest : Str} {c : Nat}
    (out : List Str) (hBuf : Marked buf)
    (hKeep : (scan q c rest.head?).2 = .keep) :
    ∃ more tail,
      splitFrom scan q ⟨buf, out⟩ (c :: rest) =
        out ++ strip (buf ++ c :: more) :: tail := by
  rcases splitFrom_started_out scan (scan q c rest.head?).1
    out (hBuf.append [c]) rest with
    ⟨more, tail, hMore⟩
  rw [List.append_assoc, List.singleton_append] at hMore
  refine ⟨more, tail, ?_⟩
  rw [splitFrom, hKeep]
  exact hMore

/- A cut ends the piece. -/
theorem splitFrom_cut
    {q : σ} {buf rest : Str} {c : Nat}
    (out : List Str) (hBuf : Marked buf)
    (hCut : (scan q c rest.head?).2 = .cut) :
    ∃ tail,
      splitFrom scan q ⟨buf, out⟩ (c :: rest) =
        out ++ strip buf :: tail := by
  have hOut := splitFrom_out scan (scan q c rest.head?).1 []
    (out ++ [strip buf]) [] rest
  rw [List.append_nil] at hOut
  refine ⟨splitFrom scan (scan q c rest.head?).1 ⟨[], []⟩ rest,
    ?_⟩
  rw [splitFrom, hCut]
  simp only [Cutting.take, Cutting.flush,
    if_neg (strip_ne_nil hBuf), hOut, List.append_assoc,
    List.singleton_append]

/- After a comment the piece goes on with white space, or
ends. -/
theorem splitFrom_comment
    {plain q : σ} {Live Comment : σ → Prop}
    (hLaw : Lawful scan plain Live Comment) {buf : Str}
    (out : List Str) (hBuf : Marked buf) (hComment : Comment q)
    (text : Str) :
    ∃ more tail,
      splitFrom scan q ⟨buf, out⟩ text =
          out ++ strip (buf ++ more) :: tail ∧
        ∀ c, more.head? = some c → isSpace c = true := by
  induction text generalizing q with
  | nil =>
      refine ⟨[], [], ?_, fun c hC => nomatch hC⟩
      rw [List.append_nil, splitFrom, Cutting.flush,
        if_neg (strip_ne_nil hBuf)]
  | cons c rest ih =>
      rcases hLaw.comment q c rest.head? hComment with
        ⟨hStay, hDrop⟩ | ⟨hBack, hSpace⟩
      · rw [splitFrom, hDrop]
        exact ih hStay
      · have hKeep : (scan q c rest.head?).2 = .keep := by
          rw [hBack]
        rcases splitFrom_keep out hBuf hKeep with
          ⟨more, tail, hMore⟩
        refine ⟨c :: more, tail, hMore, fun d hD => ?_⟩
        cases hD
        exact hSpace

/- A piece that goes on with a mark is no piece that ends or
goes on with white space. -/
theorem strip_ne_strip
    {buf more other : Str} {c : Nat}
    (hBuf : Marked buf) (hC : isSpace c = false)
    (hOther : ∀ d, other.head? = some d → isSpace d = true) :
    strip (buf ++ c :: more) ≠ strip (buf ++ other) := by
  intro hSame
  have hMark := prefix_strip_append buf hC more
  rw [hSame] at hMark
  have hBoth := hMark.trans (strip_append_spaces hBuf other)
  rw [List.prefix_append_right_inj] at hBoth
  rcases hBoth with ⟨later, hLater⟩
  have hSpace := hOther c (by rw [← hLater]; rfl)
  rw [hSpace] at hC
  cases hC

/- The length of a joined text. -/
theorem length_joinWith
    {pieces : List Str}
    (hSome : pieces ≠ []) :
    (joinWith [semicolon] pieces).length + 1 =
      weight pieces := by
  induction pieces with
  | nil => exact absurd rfl hSome
  | cons p more ih =>
      cases more with
      | nil => simp [joinWith, weight]
      | cons next rest =>
          have hMore := ih (List.cons_ne_nil next rest)
          rw [joinWith_cons _ p (List.cons_ne_nil next rest)]
          simp only [weight, List.map_cons, List.sum_cons,
            List.length_append, List.length_singleton]
            at hMore ⊢
          omega

/- Where one scanner keeps a mark of a piece that another ends
the piece at, or drops as a comment, they part for good. -/
theorem splitFrom_ne
    {τ : Type} {other : Scan τ} {plain t : τ} {q : σ}
    {Live Comment : τ → Prop}
    (hLaw : Lawful other plain Live Comment)
    {buf rest : Str} {c : Nat}
    (out : List Str) (hBuf : Marked buf) (hC : isSpace c = false)
    (hKeep : (scan q c rest.head?).2 = .keep)
    (hOther :
      (other t c rest.head?).2 = .cut ∨
        ((other t c rest.head?).2 = .drop ∧
          Comment (other t c rest.head?).1)) :
    splitFrom scan q ⟨buf, out⟩ (c :: rest) ≠
      splitFrom other t ⟨buf, out⟩ (c :: rest) := by
  rcases splitFrom_keep out hBuf hKeep with
    ⟨more, tail, hMore⟩
  have hEnds :
      ∃ later tail,
        splitFrom other t ⟨buf, out⟩ (c :: rest) =
            out ++ strip (buf ++ later) :: tail ∧
          ∀ d, later.head? = some d → isSpace d = true := by
    rcases hOther with hCut | ⟨hDrop, hComment⟩
    · rcases splitFrom_cut out hBuf hCut with ⟨tail, hTail⟩
      refine ⟨[], tail, ?_, fun d hD => nomatch hD⟩
      rw [List.append_nil, hTail]
    · rw [splitFrom, hDrop]
      exact splitFrom_comment hLaw out hBuf hComment rest
  rcases hEnds with ⟨later, tail', hLater, hSpace⟩
  rw [hMore, hLater]
  intro hSame
  rw [List.append_cancel_left_eq, List.cons.injEq] at hSame
  exact strip_ne_strip hBuf hC hSpace hSame.1

variable {plain : σ} {Live Comment : σ → Prop}

/- A piece that leads out of the plain state is not blank. -/
theorem marked_of_kept
    (hLaw : Lawful scan plain Live Comment)
    {buf : Str} {next : Option Nat} {q : σ}
    (hKept : kept scan plain buf next = some q) (hQ : q ≠ plain) :
    Marked buf := by
  by_contra hNot
  have hBlank : ∀ c ∈ buf, isSpace c = true := by
    intro c hMem
    by_contra hC
    exact hNot ⟨c, hMem, by simpa using hC⟩
  rw [hLaw.kept_space next hLaw.plain_live hBlank] at hKept
  exact hQ (Option.some.inj hKept).symm

/- Pieces of which one has, where the scanner is plain, two
characters that it does not keep: joined, they are split
otherwise. -/
theorem split_joinWith_ne
    (hLaw : Lawful scan plain Live Comment)
    {buf rest piece : Str} {out tail : List Str} {c d : Nat}
    (hInv : Resumes scan plain Live Comment plain ⟨buf, out⟩
      (c :: rest))
    (hDrop : (scan plain c (some d)).2 = .drop)
    (hPiece : buf.dropWhile isSpace ++ [c, d] <+: piece) :
    split scan plain
        (joinWith [semicolon] (out ++ piece :: tail)) ≠
      out ++ piece :: tail := by
  intro hSame
  rcases hPiece with ⟨later, rfl⟩
  generalize hPieces :
    (buf.dropWhile isSpace ++ [c, d] ++ later) :: tail = pieces
    at hSame
  have hSome : pieces ≠ [] := by
    rw [← hPieces]
    exact List.cons_ne_nil _ _
  have hStart : ∃ more, joinWith [semicolon] pieces =
      buf.dropWhile isSpace ++ c :: d :: more := by
    rw [← hPieces]
    cases tail with
    | nil => exact ⟨later, by simp [joinWith]⟩
    | cons p rest =>
        exact ⟨later ++ [semicolon] ++
          joinWith [semicolon] (p :: rest),
          by simp [joinWith]⟩
  rcases hStart with ⟨more, hMore⟩
  have hKept := hLaw.kept_dropWhile
    (hInv.live hLaw.plain_live)
  have hRead := splitFrom_kept ⟨[], out⟩ (c :: d :: more)
    hKept
  have hSplit :
      split scan plain
          (joinWith [semicolon] (out ++ pieces)) =
        splitFrom scan (scan plain c (some d)).1
          ⟨buf.dropWhile isSpace, out⟩ (d :: more) := by
    unfold split
    rw [splitFrom_joinWith hLaw [] hInv.done hSome,
      List.nil_append, hMore, hRead, splitFrom,
      List.head?_cons, hDrop]
    rfl
  have hLe := weight_splitFrom_le scan
    (scan plain c (some d)).1
    ⟨buf.dropWhile isSpace, out⟩ (d :: more)
  have hLength := length_joinWith hSome
  rw [← hSplit, hSame, weight_append, ← hLength, hMore] at hLe
  simp only [List.length_append, List.length_cons] at hLe
  omega

end Lib

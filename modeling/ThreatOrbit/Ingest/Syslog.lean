import ThreatOrbit.Lib.Utf8

/-
  The framing of syslog over a stream of bytes.

  A frame is a count of octets, a space and that many bytes,
  or else a line. What a read leaves unfinished is carried
  into the next.
-/

---- Frames

namespace ThreatOrbit.Ingest

open Lib

/- `MAX_SYSLOG_MSG`. -/
def maxSyslogMsg : Nat := 65536

/- A byte from 0 to 9. -/
def isDigitByte (b : UInt8) : Bool :=
  0x30 ≤ b.toNat && b.toNat ≤ 0x39

/- The number that digits denote. -/
def byteDigits (digits : Bytes) : Nat :=
  digitsNat (digits.map UInt8.toNat)

/- What the framing is rejected with. -/
inductive FramingError where
| tooManyDigits
| declared (length : Nat)
| countTooLong
| lineTooLong
deriving DecidableEq, Repr

/- The message of a `FramingError`; the first is the one of
the conversion of the digits. -/
def FramingError.message : FramingError → Option Str
| .tooManyDigits => none
| .declared length =>
    some (lit "syslog frame declares " ++ natStr length ++
      lit " bytes (> " ++ natStr maxSyslogMsg ++ lit ")")
| .countTooLong => some (lit "syslog octet count too long")
| .lineTooLong =>
    some (lit "syslog line exceeds " ++ natStr maxSyslogMsg ++
      lit " bytes without a newline")

/- What one pass of the loop makes of the buffer. -/
inductive Framing where
| frame (message : Option Str) (rest : Bytes)
| wait
| reject (error : FramingError)
deriving DecidableEq, Repr

/- The text of a line, unless it is blank. -/
def lineText (line : Bytes) : Option Str :=
  let text := strip (decodeReplace line)
  if text = [] then none else some text

def countedFrame (digits body : Bytes) : Framing :=
  if maxStrDigits < digits.length then
    .reject .tooManyDigits
  else
    let length := byteDigits digits
    if maxSyslogMsg < length then
      .reject (.declared length)
    else if body.length < length then
      .wait
    else
      .frame (some (decodeReplace (body.take length)))
        (body.drop length)

/- A frame that ends with a newline. -/
def lineFrame (buf : Bytes) : Framing :=
  match buf.dropWhile (· != newline) with
  | _ :: rest =>
      .frame (lineText (buf.takeWhile (· != newline))) rest
  | [] =>
      if maxSyslogMsg < buf.length then
        .reject .lineTooLong
      else
        .wait

/- One pass of the loop of `deframe_syslog`. -/
def frameStep (buf : Bytes) : Framing :=
  let digits := buf.takeWhile isDigitByte
  match digits, buf.dropWhile isDigitByte with
  | _ :: _, [] =>
      if (natStr maxSyslogMsg).length < digits.length then
        .reject .countTooLong
      else
        .wait
  | _ :: _, b :: body =>
      if b = 0x20 then countedFrame digits body
      else lineFrame buf
  | [], _ => lineFrame buf

/- The messages of a buffer and its remainder; at most as
many passes as given. -/
@[grind =]
def deframeFrom :
    Nat → Bytes → Except FramingError (List Str × Bytes)
| 0, buf => .ok ([], buf)
| n + 1, buf =>
    if buf = [] then
      .ok ([], [])
    else
      match frameStep buf with
      | .wait => .ok ([], buf)
      | .reject error => .error error
      | .frame message rest =>
          (deframeFrom n rest).map fun so =>
            (message.toList ++ so.1, so.2)

/- `deframe_syslog`. -/
def deframe (buf : Bytes) :
    Except FramingError (List Str × Bytes) :=
  deframeFrom buf.length buf

/- The loop of `_handle_tls_conn` over the reads: the messages
so far, and the remainder that is carried. -/
@[grind =]
def receiveFrom
    (so : List Str × Bytes) :
    List Bytes → Except FramingError (List Str × Bytes)
| [] => .ok so
| chunk :: reads =>
    match deframe (so.2 ++ chunk) with
    | .error error => .error error
    | .ok (messages, rest) =>
        receiveFrom (so.1 ++ messages, rest) reads

def receive (reads : List Bytes) :
    Except FramingError (List Str × Bytes) :=
  receiveFrom ([], []) reads

---- Frames Do Not Depend On What Follows

theorem takeWhile_append_of_dropWhile
    {p : UInt8 → Bool} {buf : Bytes} {b : UInt8} {rest : Bytes}
    (more : Bytes) (hDrop : buf.dropWhile p = b :: rest) :
    (buf ++ more).takeWhile p = buf.takeWhile p ∧
      (buf ++ more).dropWhile p = b :: (rest ++ more) := by
  have hStop : p b = false := by
    have hHead := List.head?_dropWhile_not p buf
    rw [hDrop] at hHead
    simpa using hHead
  have hBuf : buf = buf.takeWhile p ++ b :: rest := by
    rw [← hDrop, List.takeWhile_append_dropWhile]
  have hTake : ∀ x ∈ buf.takeWhile p, p x = true :=
    fun x hX => List.mem_takeWhile_imp hX
  have hWhole : buf ++ more =
      buf.takeWhile p ++ (b :: (rest ++ more)) := by
    conv_lhs => rw [hBuf]
    simp
  rw [hWhole, List.takeWhile_append_of_pos hTake,
    List.dropWhile_append_of_pos hTake]
  simp [hStop]

theorem lineFrame_append
    {buf rest : Bytes} {message : Option Str}
    (more : Bytes) (hFrame : lineFrame buf = .frame message rest) :
    lineFrame (buf ++ more) = .frame message (rest ++ more) := by
  unfold lineFrame at hFrame ⊢
  cases hDrop : buf.dropWhile (· != newline) with
  | nil =>
      rw [hDrop] at hFrame
      simp only at hFrame
      split at hFrame
      · cases hFrame
      · cases hFrame
  | cons b after =>
      rcases takeWhile_append_of_dropWhile more hDrop with
        ⟨hTake, hAfter⟩
      rw [hDrop] at hFrame
      simp only [Framing.frame.injEq] at hFrame
      rw [hTake, hAfter]
      simp only [hFrame.1, hFrame.2]

theorem countedFrame_append
    {digits body rest : Bytes} {message : Option Str}
    (more : Bytes)
    (hFrame : countedFrame digits body = .frame message rest) :
    countedFrame digits (body ++ more) =
      .frame message (rest ++ more) := by
  unfold countedFrame at hFrame ⊢
  split at hFrame
  · cases hFrame
  · rename_i hDigits
    rw [if_neg hDigits]
    dsimp only at hFrame ⊢
    split at hFrame
    · cases hFrame
    · rename_i hDeclared
      rw [if_neg hDeclared]
      split at hFrame
      · cases hFrame
      · rename_i hArrived
        rw [Framing.frame.injEq] at hFrame
        have hEnough : byteDigits digits ≤ body.length := by
          omega
        rw [if_neg (by rw [List.length_append]; omega),
          List.take_append_of_le_length hEnough,
          List.drop_append_of_le_length hEnough,
          hFrame.1, hFrame.2]

/- Digits to the end are no frame. -/
theorem frameStep_digits
    {buf : Bytes}
    (hDrop : buf.dropWhile isDigitByte = []) :
    frameStep buf =
      if (natStr maxSyslogMsg).length < buf.length then
        .reject .countTooLong
      else
        .wait := by
  have hTake : buf.takeWhile isDigitByte = buf := by
    have hJoin := List.takeWhile_append_dropWhile
      (p := isDigitByte) (l := buf)
    rwa [hDrop, List.append_nil] at hJoin
  unfold frameStep
  rw [hTake, hDrop]
  cases buf with
  | nil => simp [lineFrame]
  | cons b buf => rfl

/- A frame that is there stays, whatever arrives later. -/
theorem frameStep_append
    {buf rest : Bytes} {message : Option Str}
    (more : Bytes) (hFrame : frameStep buf = .frame message rest) :
    frameStep (buf ++ more) = .frame message (rest ++ more) := by
  cases hDrop : buf.dropWhile isDigitByte with
  | nil =>
      rw [frameStep_digits hDrop] at hFrame
      split at hFrame
      · cases hFrame
      · cases hFrame
  | cons b body =>
      rcases takeWhile_append_of_dropWhile more hDrop with
        ⟨hTake, hBody⟩
      unfold frameStep at hFrame ⊢
      rw [hTake, hBody]
      rw [hDrop] at hFrame
      cases hDigits : buf.takeWhile isDigitByte with
      | nil =>
          rw [hDigits] at hFrame
          exact lineFrame_append more hFrame
      | cons d digits =>
          rw [hDigits] at hFrame
          simp only at hFrame ⊢
          split at hFrame
          · rename_i hSpace
            rw [if_pos hSpace]
            exact countedFrame_append more hFrame
          · rename_i hOther
            rw [if_neg hOther]
            exact lineFrame_append more hFrame

theorem length_of_lineFrame
    {buf rest : Bytes} {message : Option Str}
    (hFrame : lineFrame buf = .frame message rest) :
    rest.length < buf.length := by
  unfold lineFrame at hFrame
  cases hDrop : buf.dropWhile (· != newline) with
  | nil =>
      rw [hDrop] at hFrame
      simp only at hFrame
      split at hFrame
      · cases hFrame
      · cases hFrame
  | cons b after =>
      have hShort :=
        (List.dropWhile_suffix (· != newline) (l := buf)).length_le
      rw [hDrop] at hFrame hShort
      rw [Framing.frame.injEq] at hFrame
      rw [List.length_cons, hFrame.2] at hShort
      exact hShort

theorem length_of_countedFrame
    {digits body rest : Bytes} {message : Option Str}
    (hFrame : countedFrame digits body = .frame message rest) :
    rest.length ≤ body.length := by
  unfold countedFrame at hFrame
  split at hFrame
  · cases hFrame
  · dsimp only at hFrame
    split at hFrame
    · cases hFrame
    · split at hFrame
      · cases hFrame
      · rw [Framing.frame.injEq] at hFrame
        rw [← hFrame.2, List.length_drop]
        omega

/- A frame takes at least one byte. -/
theorem length_of_frame
    {buf rest : Bytes} {message : Option Str}
    (hFrame : frameStep buf = .frame message rest) :
    rest.length < buf.length := by
  cases hDrop : buf.dropWhile isDigitByte with
  | nil =>
      rw [frameStep_digits hDrop] at hFrame
      split at hFrame
      · cases hFrame
      · cases hFrame
  | cons b body =>
      have hShort :=
        (List.dropWhile_suffix isDigitByte (l := buf)).length_le
      rw [hDrop, List.length_cons] at hShort
      unfold frameStep at hFrame
      rw [hDrop] at hFrame
      cases hDigits : buf.takeWhile isDigitByte with
      | nil =>
          rw [hDigits] at hFrame
          exact length_of_lineFrame hFrame
      | cons d digits =>
          rw [hDigits] at hFrame
          simp only at hFrame
          split at hFrame
          · have hBody := length_of_countedFrame hFrame
            omega
          · exact length_of_lineFrame hFrame

---- Reading In Pieces

/- More passes than there are bytes make no difference. -/
theorem deframeFrom_of_le
    {n m : Nat} {buf : Bytes}
    (hN : buf.length ≤ n) (hM : buf.length ≤ m) :
    deframeFrom n buf = deframeFrom m buf := by
  induction n generalizing m buf with
  | zero =>
      have hEmpty : buf = [] := by
        simpa using hN
      subst hEmpty
      cases m with
      | zero => rfl
      | succ m => rfl
  | succ n ih =>
      cases m with
      | zero =>
          have hEmpty : buf = [] := by
            simpa using hM
          subst hEmpty
          rfl
      | succ m =>
          rw [deframeFrom, deframeFrom]
          split
          · rfl
          · cases hStep : frameStep buf with
            | wait => rfl
            | reject error => rfl
            | frame message rest =>
                have hShort := length_of_frame hStep
                simp only
                rw [ih (m := m) (by omega) (by omega)]

/- The buffer from its first frame on. -/
theorem deframe_of_frame
    {buf rest : Bytes} {message : Option Str}
    (hFrame : frameStep buf = .frame message rest) :
    deframe buf =
      (deframe rest).map fun so =>
        (message.toList ++ so.1, so.2) := by
  have hShort := length_of_frame hFrame
  cases buf with
  | nil => simp at hShort
  | cons b buf =>
      unfold deframe
      rw [List.length_cons, deframeFrom,
        if_neg (List.cons_ne_nil b buf), hFrame]
      rw [List.length_cons] at hShort
      simp only
      rw [deframeFrom_of_le (m := rest.length) (by omega)
        (Nat.le_refl _)]

theorem deframe_of_wait
    {buf : Bytes}
    (hWait : frameStep buf = .wait) :
    deframe buf = .ok ([], buf) := by
  cases buf with
  | nil => rfl
  | cons b buf =>
      unfold deframe
      rw [List.length_cons, deframeFrom,
        if_neg (List.cons_ne_nil b buf), hWait]

theorem deframe_of_reject
    {buf : Bytes} {error : FramingError}
    (hReject : frameStep buf = .reject error) :
    deframe buf = .error error := by
  cases buf with
  | nil => simp [frameStep, lineFrame] at hReject
  | cons b buf =>
      unfold deframe
      rw [List.length_cons, deframeFrom,
        if_neg (List.cons_ne_nil b buf), hReject]

/- What was read before changes nothing for what follows. -/
theorem deframe_append
    {buf rest : Bytes} {messages : List Str}
    (more : Bytes) (hOk : deframe buf = .ok (messages, rest)) :
    deframe (buf ++ more) =
      (deframe (rest ++ more)).map fun so =>
        (messages ++ so.1, so.2) := by
  induction hLength : buf.length using Nat.strong_induction_on
    generalizing buf messages with
  | _ n ih =>
      cases hStep : frameStep buf with
      | wait =>
          rw [deframe_of_wait hStep, Except.ok.injEq,
            Prod.mk.injEq] at hOk
          rw [← hOk.1, ← hOk.2]
          cases deframe (buf ++ more) with
          | error error => rfl
          | ok so => rfl
      | reject error =>
          rw [deframe_of_reject hStep] at hOk
          cases hOk
      | frame message after =>
          have hShort := length_of_frame hStep
          rw [deframe_of_frame hStep] at hOk
          cases hAfter : deframe after with
          | error error =>
              rw [hAfter] at hOk
              cases hOk
          | ok so =>
              rcases so with ⟨later, remainder⟩
              rw [hAfter] at hOk
              simp only [Except.map, Except.ok.injEq,
                Prod.mk.injEq] at hOk
              rcases hOk with ⟨hMessages, hRest⟩
              rw [hRest] at hAfter
              have hMore := ih after.length (by omega) hAfter rfl
              rw [deframe_of_frame (frameStep_append more hStep),
                hMore, ← hMessages]
              cases deframe (rest ++ more) with
              | error error => rfl
              | ok so => simp [Except.map]

/- The reads go through exactly if no read is rejected where
it ends, and then as the whole stream would. -/
theorem receiveFrom_eq_ok_iff
    {seen : Bytes} {messages : List Str} {rest : Bytes}
    (hSeen : deframe seen = .ok (messages, rest))
    (reads : List Bytes) (result : List Str × Bytes) :
    receiveFrom (messages, rest) reads = .ok result ↔
      deframe (seen ++ reads.flatten) = .ok result ∧
        ∀ before after, reads = before ++ after →
          ∃ so, deframe (seen ++ before.flatten) = .ok so := by
  induction reads generalizing seen messages rest with
  | nil =>
      rw [receiveFrom, List.flatten_nil, List.append_nil, hSeen]
      constructor
      · intro hSame
        refine ⟨hSame, ?_⟩
        intro before after hSplit
        have hNone : before = [] :=
          (List.append_eq_nil_iff.mp hSplit.symm).1
        rw [hNone, List.flatten_nil, List.append_nil]
        exact ⟨_, hSeen⟩
      · rintro ⟨hSame, _⟩
        exact hSame
  | cons chunk reads ih =>
      have hChunk := deframe_append chunk hSeen
      rw [receiveFrom]
      cases hNext : deframe (rest ++ chunk) with
      | error error =>
          rw [hNext] at hChunk
          constructor
          · intro hOk
            cases hOk
          · rintro ⟨_, hAll⟩
            rcases hAll [chunk] reads rfl with ⟨so, hSo⟩
            rw [List.flatten_singleton, hChunk] at hSo
            cases hSo
      | ok so =>
          rcases so with ⟨later, remainder⟩
          rw [hNext] at hChunk
          have hHere : deframe (seen ++ chunk) =
              .ok (messages ++ later, remainder) := hChunk
          have hRest := ih hHere
          simp only
          rw [hRest, List.flatten_cons, ← List.append_assoc]
          constructor
          · rintro ⟨hWhole, hAll⟩
            refine ⟨hWhole, ?_⟩
            intro before after hSplit
            cases before with
            | nil =>
                rw [List.flatten_nil, List.append_nil]
                exact ⟨_, hSeen⟩
            | cons first before =>
                rw [List.cons_append, List.cons.injEq] at hSplit
                rw [← hSplit.1, List.flatten_cons,
                  ← List.append_assoc]
                exact hAll before after hSplit.2
          · rintro ⟨hWhole, hAll⟩
            refine ⟨hWhole, ?_⟩
            intro before after hSplit
            have hFirst := hAll (chunk :: before) after
              (by rw [hSplit]; rfl)
            rwa [List.flatten_cons, ← List.append_assoc]
              at hFirst

/- The messages of a stream do not depend on its reads, unless
a read is rejected. -/
theorem receive_eq_ok_iff
    (reads : List Bytes) (result : List Str × Bytes) :
    receive reads = .ok result ↔
      deframe reads.flatten = .ok result ∧
        ∀ before after, reads = before ++ after →
          ∃ so, deframe before.flatten = .ok so := by
  have hNothing : deframe [] = .ok ([], []) := rfl
  have hRun := receiveFrom_eq_ok_iff hNothing reads result
  simpa [receive] using hRun

---- Frames That Count Their Octets

def octetCount (m : Bytes) : Bytes :=
  asciiBytes (natStr m.length)

/- `MSGLEN SP MSG`. -/
def octetFrame (m : Bytes) : Bytes :=
  octetCount m ++ 0x20 :: m

theorem isDigitByte_of_mem_octetCount
    {m : Bytes} {b : UInt8}
    (hMem : b ∈ octetCount m) :
    isDigitByte b = true := by
  unfold octetCount asciiBytes at hMem
  rw [List.mem_map] at hMem
  rcases hMem with ⟨c, hC, rfl⟩
  have hDigit := isDigit_of_mem_natStr hC
  simp only [isDigit, cp, Bool.and_eq_true,
    decide_eq_true_eq] at hDigit
  have hLow : 48 ≤ c := hDigit.1
  have hHigh : c ≤ 57 := hDigit.2
  have hByte : (UInt8.ofNat c).toNat = c := by
    rw [UInt8.toNat_ofNat']
    omega
  unfold isDigitByte
  rw [hByte]
  simp
  omega

/- The count denotes the length. -/
theorem byteDigits_octetCount (m : Bytes) :
    byteDigits (octetCount m) = m.length := by
  have hSame : (octetCount m).map UInt8.toNat = natStr m.length := by
    unfold octetCount asciiBytes
    rw [List.map_map]
    conv_rhs => rw [← List.map_id (natStr m.length)]
    apply List.map_congr_left
    intro c hC
    have hDigit := isDigit_of_mem_natStr hC
    simp only [isDigit, cp, Bool.and_eq_true,
      decide_eq_true_eq] at hDigit
    have hHigh : c ≤ 57 := hDigit.2
    simp only [Function.comp, id, UInt8.toNat_ofNat']
    omega
  unfold byteDigits
  rw [hSame, digitsNat_natStr]

theorem octetCount_ne_nil (m : Bytes) :
    octetCount m ≠ [] := by
  unfold octetCount asciiBytes
  simpa using natStr_ne_nil m.length

theorem length_octetCount_le
    {m : Bytes}
    (hBound : m.length ≤ maxSyslogMsg) :
    (octetCount m).length ≤ 5 := by
  unfold maxSyslogMsg at hBound
  unfold octetCount asciiBytes
  rw [List.length_map]
  exact length_natStr_le (by omega) (by omega)

/- What a buffer that starts with a whole count is. -/
theorem frameStep_counted
    (m body : Bytes) :
    frameStep (octetCount m ++ 0x20 :: body) =
      countedFrame (octetCount m) body := by
  have hDigits : ∀ b ∈ octetCount m, isDigitByte b = true :=
    fun b hB => isDigitByte_of_mem_octetCount hB
  have hSpace : isDigitByte 0x20 = false := by
    decide
  unfold frameStep
  rw [List.takeWhile_append_of_pos hDigits,
    List.dropWhile_append_of_pos hDigits]
  simp only [List.takeWhile_cons, List.dropWhile_cons, hSpace,
    Bool.false_eq_true, if_false, List.append_nil]
  cases hCount : octetCount m with
  | nil => exact absurd hCount (octetCount_ne_nil m)
  | cons b digits => simp

/- A frame that has arrived. -/
theorem frameStep_octetFrame
    {m : Bytes}
    (hBound : m.length ≤ maxSyslogMsg) (rest : Bytes) :
    frameStep (octetFrame m ++ rest) =
      .frame (some (decodeReplace m)) rest := by
  have hCount := length_octetCount_le hBound
  unfold octetFrame
  rw [List.append_assoc, List.cons_append, frameStep_counted]
  unfold countedFrame
  rw [if_neg (by unfold maxStrDigits; omega)]
  dsimp only
  rw [byteDigits_octetCount, if_neg (by omega),
    if_neg (by rw [List.length_append]; omega)]
  simp

/- A frame of which a part has arrived. -/
theorem frameStep_part
    {m part missing : Bytes}
    (hBound : m.length ≤ maxSyslogMsg)
    (hSplit : octetFrame m = part ++ missing)
    (hMissing : missing ≠ []) :
    frameStep part = .wait := by
  have hCount := length_octetCount_le hBound
  have hShort : ∀ p : Bytes, p <+: octetCount m →
      frameStep p = .wait := by
    intro p hPrefix
    have hDrop : p.dropWhile isDigitByte = [] := by
      rw [List.dropWhile_eq_nil_iff]
      intro b hB
      exact isDigitByte_of_mem_octetCount
        (hPrefix.subset hB)
    have hLength := hPrefix.length_le
    rw [frameStep_digits hDrop, if_neg]
    have hFive : (natStr maxSyslogMsg).length = 5 := by
      decide
    omega
  unfold octetFrame at hSplit
  rcases List.append_eq_append_iff.mp hSplit with
    ⟨body, hPart, hBody⟩ | ⟨more, hMore, _⟩
  · cases body with
    | nil =>
        apply hShort
        rw [hPart, List.append_nil]
    | cons b body =>
        rw [List.cons_append, List.cons.injEq] at hBody
        rw [hPart, ← hBody.1, frameStep_counted]
        have hLess : body.length < m.length := by
          have hPos := List.length_pos_of_ne_nil hMissing
          rw [hBody.2, List.length_append]
          omega
        unfold countedFrame
        rw [if_neg (by unfold maxStrDigits; omega)]
        dsimp only
        rw [byteDigits_octetCount, if_neg (by omega),
          if_pos hLess]
  · apply hShort
    exact ⟨more, hMore.symm⟩

/- The whole stream. -/
theorem deframe_octetFrames
    {messages : List Bytes}
    (hBound : ∀ m ∈ messages, m.length ≤ maxSyslogMsg) :
    deframe (messages.flatMap octetFrame) =
      .ok (messages.map decodeReplace, []) := by
  induction messages with
  | nil => rfl
  | cons m messages ih =>
      rw [List.forall_mem_cons] at hBound
      rw [List.flatMap_cons,
        deframe_of_frame (frameStep_octetFrame hBound.1 _),
        ih hBound.2]
      rfl

/- The stream up to any place. -/
theorem deframe_octetFrames_prefix
    {messages : List Bytes}
    (hBound : ∀ m ∈ messages, m.length ≤ maxSyslogMsg)
    {part missing : Bytes}
    (hSplit : messages.flatMap octetFrame = part ++ missing) :
    ∃ so, deframe part = .ok so := by
  induction messages generalizing part with
  | nil =>
      have hNone : part = [] :=
        (List.append_eq_nil_iff.mp hSplit.symm).1
      rw [hNone]
      exact ⟨_, rfl⟩
  | cons m messages ih =>
      rw [List.forall_mem_cons] at hBound
      rw [List.flatMap_cons] at hSplit
      rcases List.append_eq_append_iff.mp hSplit with
        ⟨later, hPart, hLater⟩ | ⟨more, hMore, _⟩
      · rcases ih hBound.2 hLater with ⟨so, hSo⟩
        rw [hPart,
          deframe_of_frame (frameStep_octetFrame hBound.1 _),
          hSo]
        exact ⟨_, rfl⟩
      · by_cases hWhole : more = []
        · rw [hWhole, List.append_nil] at hMore
          rw [← hMore, ← List.append_nil (octetFrame m),
            deframe_of_frame (frameStep_octetFrame hBound.1 [])]
          exact ⟨_, rfl⟩
        · rw [deframe_of_wait
            (frameStep_part hBound.1 hMore hWhole)]
          exact ⟨_, rfl⟩

/- Messages that are sent with their counts arrive, however
the stream is cut into reads. -/
theorem receive_octet_frames
    {messages : List Bytes}
    (hBound : ∀ m ∈ messages, m.length ≤ maxSyslogMsg)
    {reads : List Bytes}
    (hReads : reads.flatten = messages.flatMap octetFrame) :
    receive reads = .ok (messages.map decodeReplace, []) := by
  rw [receive_eq_ok_iff, hReads]
  refine ⟨deframe_octetFrames hBound, ?_⟩
  intro before after hSplit
  have hCut :
      messages.flatMap octetFrame =
        before.flatten ++ after.flatten := by
    rw [← hReads, hSplit, List.flatten_append]
  exact deframe_octetFrames_prefix hBound hCut

/- A cut inside a count, and one inside a message. -/
theorem receive_two_frames :
    receive [asciiBytes (lit "1"), asciiBytes (lit "1 hello "),
        asciiBytes (lit "world2 ok")] =
      .ok ([asciiBytes (lit "hello world"),
        asciiBytes (lit "ok")].map decodeReplace, []) :=
  receive_octet_frames (by decide) (by decide)

---- Lines

/- A message of a sender that ends its messages with a
newline. -/
structure SyslogLine where
  bytes : Bytes
  noNewline : newline ∉ bytes
  bounded : bytes.length ≤ maxSyslogMsg
  notBlank : strip (decodeReplace bytes) ≠ []
  uncounted :
    bytes.takeWhile isDigitByte = [] ∨
      (bytes.dropWhile isDigitByte).head? ≠ some 0x20

/- The text of a message. -/
def SyslogLine.text (l : SyslogLine) : Str :=
  strip (decodeReplace l.bytes)

/- A message and its newline. -/
def SyslogLine.frame (l : SyslogLine) : Bytes :=
  l.bytes ++ [newline]

/- The bytes of a stream after its last newline. -/
def unfinished (s : Bytes) : Bytes :=
  (s.reverse.takeWhile (· != newline)).reverse

/- A stream that ends in so many digits that they are taken
for the count of a frame that is too long. -/
def MidCount (s : Bytes) : Prop :=
  (∀ b ∈ unfinished s, isDigitByte b = true) ∧
    (natStr maxSyslogMsg).length < (unfinished s).length

instance (s : Bytes) : Decidable (MidCount s) :=
  inferInstanceAs (Decidable (_ ∧ _))

theorem unfinished_of_not_mem
    {s : Bytes}
    (hNone : newline ∉ s) :
    unfinished s = s := by
  have hAll : ∀ b ∈ s.reverse, (b != newline) = true := by
    intro b hB
    rw [bne_iff_ne]
    intro hSame
    apply hNone
    rw [← hSame]
    exact List.mem_reverse.mp hB
  unfold unfinished
  rw [List.takeWhile_eq_self_iff.mpr hAll, List.reverse_reverse]

theorem unfinished_append
    (a s : Bytes) :
    unfinished (a ++ newline :: s) = unfinished s := by
  unfold unfinished
  rw [List.reverse_append, List.reverse_cons, List.append_assoc,
    List.takeWhile_append]
  split
  · rename_i hWhole
    have hSame : s.reverse.takeWhile (· != newline) =
        s.reverse :=
      (List.takeWhile_prefix _).eq_of_length hWhole
    rw [hSame]
    simp
  · rfl

/- A line that has arrived. -/
theorem lineFrame_newline
    {line : Bytes}
    (hNone : newline ∉ line) (rest : Bytes) :
    lineFrame (line ++ newline :: rest) =
      .frame (lineText line) rest := by
  have hAll : ∀ b ∈ line, (b != newline) = true := by
    intro b hB
    rw [bne_iff_ne]
    intro hSame
    exact hNone (hSame ▸ hB)
  unfold lineFrame
  rw [List.dropWhile_append_of_pos hAll,
    List.takeWhile_append_of_pos hAll]
  simp

/- A line of which a part has arrived. -/
theorem lineFrame_part
    {part : Bytes}
    (hNone : newline ∉ part) (hBound : part.length ≤ maxSyslogMsg) :
    lineFrame part = .wait := by
  have hDrop : part.dropWhile (· != newline) = [] := by
    rw [List.dropWhile_eq_nil_iff]
    intro b hB
    rw [bne_iff_ne]
    intro hSame
    exact hNone (hSame ▸ hB)
  unfold lineFrame
  rw [hDrop]
  simp only
  rw [if_neg (by omega)]

/- A message that has arrived. -/
theorem frameStep_line
    (l : SyslogLine) (rest : Bytes) :
    frameStep (l.bytes ++ newline :: rest) =
      .frame (some l.text) rest := by
  have hText : lineText l.bytes = some l.text := by
    unfold lineText
    simp only
    rw [if_neg l.notBlank]
    rfl
  have hLine := lineFrame_newline l.noNewline rest
  rw [hText] at hLine
  cases hDrop : l.bytes.dropWhile isDigitByte with
  | nil =>
      have hDigits : ∀ b ∈ l.bytes, isDigitByte b = true :=
        List.dropWhile_eq_nil_iff.mp hDrop
      have hNewline : isDigitByte newline = false := by
        decide
      unfold frameStep
      rw [List.takeWhile_append_of_pos hDigits,
        List.dropWhile_append_of_pos hDigits]
      simp only [List.takeWhile_cons, List.dropWhile_cons,
        hNewline, Bool.false_eq_true, if_false,
        List.append_nil]
      cases hBytes : l.bytes with
      | nil =>
          rw [hBytes] at hLine
          exact hLine
      | cons b digits =>
          rw [hBytes] at hLine
          simp only
          rw [if_neg (by decide)]
          exact hLine
  | cons b body =>
      rcases takeWhile_append_of_dropWhile
        (newline :: rest) hDrop with ⟨hTake, hBody⟩
      unfold frameStep
      rw [hTake, hBody]
      cases hDigits : l.bytes.takeWhile isDigitByte with
      | nil => exact hLine
      | cons d digits =>
          have hOther : b ≠ 0x20 := by
            rcases l.uncounted with hNone | hHead
            · rw [hDigits] at hNone
              cases hNone
            · rw [hDrop] at hHead
              simpa using hHead
          simp only
          rw [if_neg hOther]
          exact hLine

/- A message of which a part has arrived: it is rejected if
the part is a long run of digits. -/
theorem frameStep_line_part
    {l : SyslogLine} {part missing : Bytes}
    (hSplit : l.bytes = part ++ missing) :
    (∃ so, deframe part = .ok so) ↔ ¬ MidCount part := by
  have hNone : newline ∉ part := by
    intro hMem
    apply l.noNewline
    rw [hSplit]
    exact List.mem_append_left _ hMem
  have hBound : part.length ≤ maxSyslogMsg := by
    have hWhole := l.bounded
    rw [hSplit, List.length_append] at hWhole
    omega
  have hWait := lineFrame_part hNone hBound
  unfold MidCount
  rw [unfinished_of_not_mem hNone]
  cases hDrop : part.dropWhile isDigitByte with
  | nil =>
      have hDigits := List.dropWhile_eq_nil_iff.mp hDrop
      have hStep := frameStep_digits hDrop
      by_cases hLong :
          (natStr maxSyslogMsg).length < part.length
      · rw [if_pos hLong] at hStep
        rw [deframe_of_reject hStep]
        constructor
        · rintro ⟨so, hSo⟩
          cases hSo
        · intro hShort
          exact absurd ⟨hDigits, hLong⟩ hShort
      · rw [if_neg hLong] at hStep
        rw [deframe_of_wait hStep]
        constructor
        · rintro _ ⟨_, hLonger⟩
          exact hLong hLonger
        · intro _
          exact ⟨_, rfl⟩
  | cons b body =>
      have hStep : frameStep part = .wait := by
        rcases takeWhile_append_of_dropWhile missing hDrop with
          ⟨hTake, hBody⟩
        rw [← hSplit] at hTake hBody
        unfold frameStep
        rw [hDrop]
        cases hDigits : part.takeWhile isDigitByte with
        | nil => exact hWait
        | cons d digits =>
            have hOther : b ≠ 0x20 := by
              rcases l.uncounted with hEmpty | hHead
              · rw [hTake, hDigits] at hEmpty
                cases hEmpty
              · rw [hBody] at hHead
                simpa using hHead
            simp only
            rw [if_neg hOther]
            exact hWait
      rw [deframe_of_wait hStep]
      constructor
      · rintro _ ⟨hAll, _⟩
        rw [List.dropWhile_eq_nil_iff.mpr hAll] at hDrop
        cases hDrop
      · intro _
        exact ⟨_, rfl⟩

/- The whole stream. -/
theorem deframe_lines (lines : List SyslogLine) :
    deframe (lines.flatMap SyslogLine.frame) =
      .ok (lines.map SyslogLine.text, []) := by
  induction lines with
  | nil => rfl
  | cons l lines ih =>
      rw [List.flatMap_cons, SyslogLine.frame,
        List.append_assoc, List.singleton_append,
        deframe_of_frame (frameStep_line l _), ih]
      rfl

/- The stream up to any place. -/
theorem deframe_lines_cut
    {lines : List SyslogLine} {part missing : Bytes}
    (hSplit : lines.flatMap SyslogLine.frame = part ++ missing) :
    (∃ so, deframe part = .ok so) ↔ ¬ MidCount part := by
  induction lines generalizing part with
  | nil =>
      have hNone : part = [] :=
        (List.append_eq_nil_iff.mp hSplit.symm).1
      rw [hNone]
      constructor
      · rintro _ ⟨_, hLong⟩
        simp [unfinished] at hLong
      · intro _
        exact ⟨_, rfl⟩
  | cons l lines ih =>
      rw [List.flatMap_cons, SyslogLine.frame,
        List.append_assoc, List.singleton_append] at hSplit
      rcases List.append_eq_append_iff.mp hSplit with
        ⟨later, hPart, hLater⟩ | ⟨more, hMore, _⟩
      · cases later with
        | nil =>
            have hAll : l.bytes = part ++ [] := by
              rw [hPart, List.append_nil, List.append_nil]
            exact frameStep_line_part hAll
        | cons b later =>
            rw [List.cons_append, List.cons.injEq] at hLater
            have hMid : MidCount (l.bytes ++ newline :: later) ↔
                MidCount later := by
              unfold MidCount
              rw [unfinished_append]
            rw [hPart, ← hLater.1, hMid, ← ih hLater.2,
              deframe_of_frame (frameStep_line l _)]
            cases deframe later with
            | error error => simp [Except.map]
            | ok so => simp [Except.map]
      · exact frameStep_line_part hMore

/- Messages that are sent with newlines arrive, unless a read
ends inside a long run of digits that a message starts
with. -/
theorem receive_lines_iff
    (lines : List SyslogLine)
    {reads : List Bytes}
    (hReads : reads.flatten = lines.flatMap SyslogLine.frame) :
    receive reads = .ok (lines.map SyslogLine.text, []) ↔
      ∀ before after, reads = before ++ after →
        ¬ MidCount before.flatten := by
  have hPart : ∀ before after, reads = before ++ after →
      lines.flatMap SyslogLine.frame =
        before.flatten ++ after.flatten := by
    intro before after hSplit
    rw [← hReads, hSplit, List.flatten_append]
  rw [receive_eq_ok_iff, hReads]
  constructor
  · rintro ⟨_, hAll⟩ before after hSplit
    exact (deframe_lines_cut (hPart before after hSplit)).mp
      (hAll before after hSplit)
  · intro hNone
    refine ⟨deframe_lines lines, ?_⟩
    intro before after hSplit
    exact (deframe_lines_cut (hPart before after hSplit)).mpr
      (hNone before after hSplit)

/- A message that starts with a date. -/
def datedLine : SyslogLine where
  bytes := asciiBytes (lit "20260101T000000Z up")
  noNewline := by decide
  bounded := by decide
  notBlank := by decide
  uncounted := by
    right
    decide

/- Cut after the first six digits of the date, the stream is
rejected; cut after the first five, it is not. -/
theorem dated_line_rejected :
    receive [datedLine.frame.take 6, datedLine.frame.drop 6] =
        .error .countTooLong ∧
      ¬ receive [datedLine.frame.take 6,
          datedLine.frame.drop 6] =
        .ok ([datedLine].map SyslogLine.text, []) := by
  have hRejected :
      receive [datedLine.frame.take 6, datedLine.frame.drop 6] =
        .error .countTooLong := by
    decide
  refine ⟨hRejected, ?_⟩
  rw [hRejected]
  exact fun hOk => by cases hOk

/- The first five digits might still be a count. -/
theorem dated_line_received :
    receive [datedLine.frame.take 5, datedLine.frame.drop 5] =
      .ok ([datedLine].map SyslogLine.text, []) := by
  apply (receive_lines_iff [datedLine] (by decide)).mpr
  intro before after hSplit
  cases before with
  | nil => decide +kernel
  | cons first before =>
      rw [List.cons_append, List.cons.injEq] at hSplit
      rw [← hSplit.1]
      cases before with
      | nil => decide +kernel
      | cons second before =>
          rw [List.cons_append, List.cons.injEq] at hSplit
          rw [← hSplit.2.1, (List.append_eq_nil_iff.mp
            hSplit.2.2.symm).1]
          decide +kernel

end ThreatOrbit.Ingest

import ThreatOrbit.Lib.Ip

/-
  URLs as `urllib.parse.urlparse` takes them apart, with the
  host and the port of the network location.

  Key definitions:
    * `Url`, `urlparse`
    * `Url.hostname`, `Url.port`
-/

---- Partitions

namespace Lib

/- The text before the first `c`, or all of it. -/
def beforeFirst (c : Nat) (s : Str) : Str :=
  s.takeWhile (· != c)

/- The text after the first `c`, or nothing. -/
def afterFirst (c : Nat) (s : Str) : Str :=
  (s.dropWhile (· != c)).drop 1

/- The text after the last `c`, or all of it. -/
def afterLast (c : Nat) (s : Str) : Str :=
  (s.reverse.takeWhile (· != c)).reverse

---- Splitting A URL

/- `unicodedata.normalize("NFKC", text)`. -/
class Normalizer where
  nfkc : Str → Str

/- The parts of a URL that name where it leads. -/
structure Url where
  scheme : Str
  netloc : Str
deriving DecidableEq, Repr

/- `scheme_chars`. -/
def isSchemeChar (c : Nat) : Bool :=
  isAsciiLetter c || isDigit c || c == cp '+' ||
    c == cp '-' || c == cp '.'

/- The scheme, in small letters, and what follows it. -/
def splitScheme (s : Str) : Str × Str :=
  let scheme := beforeFirst (cp ':') s
  if s.contains (cp ':') &&
      (scheme.head?.map isAsciiLetter).getD false &&
      scheme.all isSchemeChar then
    (asciiLowerStr scheme, afterFirst (cp ':') s)
  else
    ([], s)

/- `_splitnetloc`, without what follows. -/
def splitNetloc (s : Str) : Str :=
  s.takeWhile fun c =>
    c != cp '/' && c != cp '?' && c != cp '#'

/- A digit of a hexadecimal number. -/
def isHexDigit (c : Nat) : Bool :=
  (hexDigitVal c).isSome

/- `_check_bracketed_host`, false where it raises. -/
def checkBracketedHost (host : Str) : Bool :=
  match host with
  | 118 :: rest =>
      let version := rest.takeWhile isHexDigit
      let tail := rest.dropWhile isHexDigit
      version != [] && tail.head? == some (cp '.') &&
        tail.drop 1 != []
  | _ =>
      match ipAddress host with
      | some (.v6 _ _) => true
      | _ => false

/- The characters that may not come out of normalization. -/
def netlocDelimiters : Str := lit "/?#@:"

/- `_checknetloc`, false where it raises. -/
def checkNetloc [Normalizer] (netloc : Str) : Bool :=
  if netloc.all (· < 128) then
    true
  else
    let plain := netloc.filter fun c =>
      !(lit "@:#?").contains c
    let normal := Normalizer.nfkc plain
    plain == normal ||
      netlocDelimiters.all fun c => !normal.contains c

/- `urlparse(text)`. -/
def urlparse [Normalizer] (s : Str) : Except PyError Url :=
  let text := (s.dropWhile (· ≤ 32)).filter fun c =>
    c != 9 && c != 10 && c != 13
  let (scheme, rest) := splitScheme text
  let netloc :=
    if rest.take 2 == lit "//" then splitNetloc (rest.drop 2)
    else []
  let opened := netloc.contains (cp '[')
  let closed := netloc.contains (cp ']')
  if opened != closed then
    .error .valueError
  else if opened && !checkBracketedHost
      (beforeFirst (cp ']') (afterFirst (cp '[') netloc)) then
    .error .valueError
  else if !checkNetloc netloc then
    .error .valueError
  else
    .ok ⟨scheme, netloc⟩

end Lib

---- Host And Port

namespace Lib

namespace Url

/- `_hostinfo`: the host and the text of the port. -/
def hostinfo (u : Url) : Str × Str :=
  let info := afterLast (cp '@') u.netloc
  if info.contains (cp '[') then
    let bracketed := afterFirst (cp '[') info
    (beforeFirst (cp ']') bracketed,
      afterFirst (cp ':') (afterFirst (cp ']') bracketed))
  else
    (beforeFirst (cp ':') info, afterFirst (cp ':') info)

/- The host in small letters, its zone as it is. -/
def hostname [Unicode] (u : Url) : Option Str :=
  let host := u.hostinfo.1
  if host = [] then
    none
  else
    some (Unicode.lower (beforeFirst (cp '%') host) ++
      host.dropWhile (· != cp '%'))

/- The port, if there is one. -/
def port (u : Url) : Except PyError (Option Nat) :=
  let text := u.hostinfo.2
  if text = [] then
    .ok none
  else if !text.all isDigit || maxStrDigits < text.length then
    .error .valueError
  else if 65535 < digitsNat text then
    .error .valueError
  else
    .ok (some (digitsNat text))

end Url

end Lib

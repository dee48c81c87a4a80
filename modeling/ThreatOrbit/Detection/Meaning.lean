import ThreatOrbit.Detection.RoundTrip

/-
  What a Sigma document denotes, and what its import matches.

  The entries of a mapping hold together; a list of values
  holds where one of them does, or all under `all`; a list of
  mappings where one of them does; and the selections hold
  by the connective of the condition. The import has one
  list of conditions under one logic.
-/

---- Denotation

namespace ThreatOrbit.Detection

open Lib

section

variable [Unicode] [RegexEngine]

/- An event meets a condition. -/
def Holds (e : Event) (c : Condition) : Prop :=
  matchCondition e c = .ok true

omit [RegexEngine] in
def keyMods (key : Str) : List Str :=
  (splitOn (cp '|') key).tail.map Unicode.lower

end

---- Entries

section

variable [Unicode]

/- The operator that a value is compared by. -/
def keyOp (key : Str) (v : PyVal) : Op :=
  ((keyMods key).foldl applyModifier (.equals, v)).1

/- A list that is not read as one `in` condition. -/
def Spread (key : Str) : Prop :=
  (keyMods key).contains (lit "all") = true ∨
    ∀ v, keyOp key v ≠ .equals ∧ keyOp key v ≠ .contains

variable [RegexEngine]

end

---- Selections

section

variable [Unicode]

variable [RegexEngine]

end

---- The Pooled Conditions

section

variable [Unicode]

end

---- Matches

section

variable [Unicode] [RegexEngine]

variable [IsoDates]

end

---- Two Mappings

local instance meaningUnicode : Unicode := asciiTables
local instance meaningRegexEngine : RegexEngine := noPatterns
local instance meaningIsoDates : IsoDates := newYearDates

end ThreatOrbit.Detection

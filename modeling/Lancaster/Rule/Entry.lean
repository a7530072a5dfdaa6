import Lancaster.Rule.Basic

/-!
Rule entries as they are spelled: the ending from its last letter to its first, a star for
intact-only rules, the number of characters to remove, the letters to append, and a terminator that
tells whether stemming goes on. `end0.` closes a rule text and is no rule.
-/
namespace Lancaster

/-- The runs of one entry. `suffix` is the first run reversed, so it reads as an ending. -/
structure Entry where
  suffix : Text
  intactOnly : Bool
  digits : Text
  append : Text
  continues : Bool
  suffix_ne_nil : suffix ≠ []
  suffix_lower : suffix.IsLower
  append_lower : append.IsLower
  deriving Repr

def Entry.text (e : Entry) : Text :=
  e.suffix.reverse ++ (if e.intactOnly then ['*'] else []) ++ e.digits ++ e.append
    ++ [if e.continues then '>' else '.']

def endText : Text := "end0.".toList

def entryLabel (ordinal : Nat) (text : Text) : Text :=
  '(' :: decimalText ordinal ++ ':' :: text ++ [')']

/-- An entry without digits removes nothing. -/
def Entry.rule (e : Entry) (ordinal : Nat) : Rule :=
  ⟨e.suffix, e.intactOnly, e.digits.decimalValue, e.append, e.continues,
    entryLabel ordinal e.text, ordinal, e.suffix_ne_nil, e.suffix_lower, e.append_lower⟩

def Rule.entry (r : Rule) : Entry :=
  ⟨r.suffix, r.intactOnly, decimalText r.removeCount, r.append, r.continues, r.suffix_ne_nil,
    r.suffix_lower, r.append_lower⟩

/-- Spelled entries, as a grammar over characters. A second letter run needs a star or a digit
before it, since the first run takes every letter it can. -/
inductive Spells : Text → Entry → Prop where
  | intro (e : Entry) (digits : ∀ c ∈ e.digits, c.isDigit = true)
      (split : e.append ≠ [] → e.intactOnly = true ∨ e.digits ≠ []) : Spells e.text e

end Lancaster

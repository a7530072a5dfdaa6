import Lancaster.Text.Numeral
import Lancaster.Text.Quoted

/-!
Stemming rules. A rule looks for an ending, removes some characters from the end of the stem and
appends others. Rules hold only proper endings; `RuleFields.check` is the way in from raw fields.
-/
namespace Lancaster

structure Rule where
  suffix : Text
  intactOnly : Bool
  removeCount : Nat
  append : Text
  continues : Bool
  label : Text
  ordinal : Int
  suffix_ne_nil : suffix ≠ []
  suffix_lower : suffix.IsLower
  append_lower : append.IsLower
  deriving DecidableEq, Repr

def Rule.letter (r : Rule) : Letter :=
  Letter.ofLower (r.suffix.getLast r.suffix_ne_nil)
    (r.suffix_lower _ (List.getLast_mem r.suffix_ne_nil))

/-- An intact-only rule needs a stem that no rule has changed yet. -/
def Rule.matches (r : Rule) (stem : Text) (intact : Bool) : Bool :=
  (!r.intactOnly || intact) && r.suffix.isSuffixOf stem

/-- Removing more characters than there are removes them all. -/
def Rule.apply (r : Rule) (stem : Text) : Text :=
  stem.take (stem.length - r.removeCount) ++ r.append

structure RuleFields where
  suffix : Text
  intactOnly : Bool
  removeCount : Int
  append : Text
  continues : Bool
  label : Text
  ordinal : Int
  deriving DecidableEq, Repr

inductive RuleFault where
  | suffix (given : Text)
  | append (given : Text)
  | removeCount (given : Int)
  deriving DecidableEq, Repr

def RuleFault.message : RuleFault → Text
  | .suffix t => "rule suffix must be non-empty lowercase ASCII: ".toList ++ t.quoted
  | .append t => "rule append must be lowercase ASCII: ".toList ++ t.quoted
  | .removeCount n => "rule remove_count must be >= 0: ".toList ++ integerText n

/-- The first fault wins, in the order suffix, append, count. -/
def RuleFields.check (f : RuleFields) : Except RuleFault Rule :=
  if hs : f.suffix ≠ [] ∧ f.suffix.IsLower then
    if ha : f.append.IsLower then
      if f.removeCount < 0 then .error (.removeCount f.removeCount)
      else .ok ⟨f.suffix, f.intactOnly, f.removeCount.toNat, f.append, f.continues, f.label,
        f.ordinal, hs.1, hs.2, ha⟩
    else .error (.append f.append)
  else .error (.suffix f.suffix)

end Lancaster

import Arbor.Grammar.Basic
/-!
# The stored rule table

A grammar stores its rules in slots, slot `i` for the symbol `i` (`RuleSlots`). Binding a rule to
a symbol past the last slot first grows the table with empty slots up to it; a symbol past the last
slot, or with an empty slot, has no rule. Copying the rule of a symbol that has none empties the
target's slot when the table reaches it, and otherwise leaves the table as it is.

A grammar is set up by edits (`RuleEdit`), each binding a rule to a symbol or copying the rule of
one symbol to another: `RuleSlots.edit` makes one on the stored table, `RuleTable.edit` on the
table read as a map from symbols to rules, and `Grammar.edit` on a grammar.
-/

namespace Arbor

/-- The rules as stored: slot `i` holds the rule of the symbol `i`, if it has one. -/
structure RuleSlots where
  slots : List (Option Rule) := []

namespace RuleSlots

/-- The rule of `a`: what its slot holds, and none past the last slot. -/
def rule (t : RuleSlots) (a : Symbol) : Option Rule := (t.slots[a.toNat]?).getD none

/-- Binds `r` to `a`, first growing the table with empty slots up to the slot of `a`. -/
def setRule (t : RuleSlots) (a : Symbol) (r : Rule) : RuleSlots :=
  let slots :=
    if a.toNat < t.slots.length then t.slots
    else t.slots ++ List.replicate (a.toNat + 1 - t.slots.length) none
  ⟨slots.set a.toNat (some r)⟩

/-- Gives `target` the rule `source` has now. When `source` has none, the slot of `target` is
emptied if the table reaches it. -/
def aliasRule (t : RuleSlots) (target source : Symbol) : RuleSlots :=
  match t.rule source with
  | some r => t.setRule target r
  | none => if target.toNat < t.slots.length then ⟨t.slots.set target.toNat none⟩ else t

end RuleSlots

/-- One edit of the rules of a grammar. -/
inductive RuleEdit
  /-- Bind a rule, fixed or dynamic, to a symbol. -/
  | set (s : Symbol) (r : Rule)
  /-- Give `target` the rule of `source`. -/
  | copy (target source : Symbol)

/-- The symbol whose rule an edit changes. -/
def RuleEdit.target : RuleEdit → Symbol
  | .set s _ => s
  | .copy target _ => target

/-- Makes an edit on the stored table. -/
def RuleSlots.edit (t : RuleSlots) : RuleEdit → RuleSlots
  | .set s r => t.setRule s r
  | .copy target source => t.aliasRule target source

/-- Makes an edit on the table read as a map. -/
def RuleTable.edit (t : RuleTable) : RuleEdit → RuleTable
  | .set s r => t.set s r
  | .copy target source => t.copy target source

/-- Makes an edit on the rules of a grammar. -/
def Grammar.edit (g : Grammar) : RuleEdit → Grammar
  | .set s r => g.setRule s r
  | .copy target source => g.aliasRule target source

end Arbor

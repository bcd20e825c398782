import Arbor.Grammar.Expand
import Arbor.Grammar.Slots
/-!
# The stored rule table reads as a map

Read through `RuleSlots.rule`, the stored table is a map from symbols to rules, and each edit of
the stored table is the point update of that map: binding `r` to `s` sets the map at `s` to `r`,
and copying `source` to `target` sets it at `target` to what it was at `source`
(`RuleSlots.rule_edit`). Growing the table, its gaps and the copy that empties a slot only when
the table reaches it are invisible through the map. The table never grows past one slot per
symbol.

Main statement: `stored_rules_follow_map`.
-/

namespace Arbor

namespace RuleSlots

variable (t : RuleSlots)

theorem rule_of_length_le {a : Symbol} (h : t.slots.length ≤ a.toNat) : t.rule a = none := by
  simp [rule, List.getElem?_eq_none h]

/-- The table grown up to the slot of `a`. -/
def grownTo (a : Symbol) : List (Option Rule) :=
  if a.toNat < t.slots.length then t.slots
  else t.slots ++ List.replicate (a.toNat + 1 - t.slots.length) none

theorem length_grownTo (a : Symbol) :
    (t.grownTo a).length = max t.slots.length (a.toNat + 1) := by
  unfold grownTo
  split
  · omega
  · rw [List.length_append, List.length_replicate]
    omega

theorem getD_grownTo (a : Symbol) (i : Nat) :
    ((t.grownTo a)[i]?).getD none = (t.slots[i]?).getD none := by
  unfold grownTo
  split
  · rfl
  · rw [List.getElem?_append]
    split
    · rfl
    · rename_i hi
      rw [List.getElem?_eq_none (Nat.le_of_not_lt hi), List.getElem?_replicate]
      split <;> rfl

theorem setRule_eq (a : Symbol) (r : Rule) :
    t.setRule a r = ⟨(t.grownTo a).set a.toNat (some r)⟩ := rfl

theorem rule_setRule (a : Symbol) (r : Rule) (x : Symbol) :
    (t.setRule a r).rule x = if x = a then some r else t.rule x := by
  have hlen : a.toNat < (t.grownTo a).length := by
    rw [length_grownTo]
    omega
  rw [setRule_eq, rule, List.getElem?_set]
  by_cases hx : x = a
  · subst hx
    simp [hlen]
  · have hne : a.toNat ≠ x.toNat := fun h => hx (UInt8.toNat_inj.1 h).symm
    rw [if_neg hne, if_neg hx, getD_grownTo]
    rfl

theorem rule_aliasRule (target source x : Symbol) :
    (t.aliasRule target source).rule x = if x = target then t.rule source else t.rule x := by
  cases hsrc : t.rule source with
  | some r =>
    simp only [aliasRule, hsrc]
    exact t.rule_setRule target r x
  | none =>
    simp only [aliasRule, hsrc]
    by_cases hx : x = target
    · subst hx
      rw [if_pos rfl]
      split
      · rename_i hlt
        simp [rule, hlt]
      · exact t.rule_of_length_le (Nat.le_of_not_lt ‹_›)
    · have hne : target.toNat ≠ x.toNat := fun h => hx (UInt8.toNat_inj.1 h).symm
      rw [if_neg hx]
      split
      · simp only [rule, List.getElem?_set, if_neg hne]
      · rfl

/-- An edit of the stored table is the point update of the map it reads as. -/
theorem rule_edit (e : RuleEdit) : (t.edit e).rule = RuleTable.edit t.rule e := by
  funext x
  cases e with
  | set s r => exact t.rule_setRule s r x
  | copy target source => exact t.rule_aliasRule target source x

theorem rule_foldl_edit (es : List RuleEdit) :
    (es.foldl edit t).rule = es.foldl RuleTable.edit t.rule := by
  induction es generalizing t with
  | nil => rfl
  | cons e es ih => rw [List.foldl_cons, List.foldl_cons, ih, rule_edit]

variable {t}

theorem length_edit_le (h : t.slots.length ≤ 256) (e : RuleEdit) :
    (t.edit e).slots.length ≤ 256 := by
  have hset (a : Symbol) (r : Rule) : (t.setRule a r).slots.length ≤ 256 := by
    have ha := UInt8.toNat_lt a
    rw [setRule_eq, List.length_set, length_grownTo]
    omega
  cases e with
  | set s r => exact hset s r
  | copy target source =>
    show (t.aliasRule target source).slots.length ≤ 256
    unfold aliasRule
    split
    · exact hset _ _
    · split
      · simpa only [List.length_set] using h
      · exact h

theorem length_foldl_edit_le (h : t.slots.length ≤ 256) (es : List RuleEdit) :
    (es.foldl edit t).slots.length ≤ 256 := by
  induction es generalizing t with
  | nil => exact h
  | cons e es ih => exact ih (length_edit_le h e)

end RuleSlots

namespace RuleTable

theorem edit_of_target_ne {e : RuleEdit} {x : Symbol} (h : e.target ≠ x) (t : RuleTable) :
    t.edit e x = t x := by
  cases e with
  | set s r => exact if_neg (Ne.symm h)
  | copy target source => exact if_neg (Ne.symm h)

theorem foldl_edit_of_target_ne {es : List RuleEdit} {x : Symbol} (h : ∀ e ∈ es, e.target ≠ x)
    (t : RuleTable) : es.foldl edit t x = t x := by
  induction es generalizing t with
  | nil => rfl
  | cons e es ih =>
    rw [List.foldl_cons, ih (fun e' he' => h e' (List.mem_cons_of_mem e he')),
      edit_of_target_ne (h e List.mem_cons_self)]

end RuleTable

theorem Grammar.foldl_edit (g : Grammar) (es : List RuleEdit) :
    es.foldl edit g = { g with rules := es.foldl RuleTable.edit g.rules } := by
  induction es generalizing g with
  | nil => rfl
  | cons e es ih =>
    rw [List.foldl_cons, ih]
    cases e <;> rfl

/-- How the stored table of a grammar set up by a list of edits reads. -/
structure StoredRules (es : List RuleEdit) : Prop where
  /-- Every symbol has the rule the map built by point updates gives it. -/
  rule_eq : ∀ x, (es.foldl RuleSlots.edit {}).rule x = es.foldl RuleTable.edit RuleTable.empty x
  /-- The table holds at most one slot per symbol. -/
  length_le : (es.foldl RuleSlots.edit {}).slots.length ≤ 256
  /-- A grammar set up by the edits has the rules of the stored table. -/
  grammar_rules : ∀ (start : Word) (maxLen : Option Nat),
    (es.foldl Grammar.edit { start, maxLen }).rules = (es.foldl RuleSlots.edit {}).rule
  /-- A rule copied to `target` stays there through later edits of other symbols, a new rule for
  the source included. -/
  copy_kept : ∀ (target source : Symbol) (more : List RuleEdit),
    (∀ e ∈ more, e.target ≠ target) →
    ((es ++ .copy target source :: more).foldl RuleSlots.edit {}).rule target =
      (es.foldl RuleSlots.edit {}).rule source
  /-- Expanding reads the rules through the map only: edits that build the same map set up
  grammars that expand alike, however differently their tables are stored. -/
  expand_eq : ∀ es' : List RuleEdit,
    es'.foldl RuleTable.edit RuleTable.empty = es.foldl RuleTable.edit RuleTable.empty →
    ∀ (start : Word) (maxLen : Option Nat) n r,
      (es'.foldl Grammar.edit { start, maxLen }).expand n r =
        (es.foldl Grammar.edit { start, maxLen }).expand n r

/-- The rules of a grammar set up by binding and copying rules are the map built from no rules by
the matching point updates, a copy reading the source before it writes; the stored table never
holds more than one slot per symbol, a later rule for the source leaves a copy alone, and
expanding depends on the table only through that map. -/
theorem stored_rules_follow_map (es : List RuleEdit) : StoredRules es where
  rule_eq x := by rw [RuleSlots.rule_foldl_edit]; rfl
  length_le := RuleSlots.length_foldl_edit_le (Nat.zero_le _) es
  grammar_rules start maxLen := by
    rw [Grammar.foldl_edit, RuleSlots.rule_foldl_edit]
    rfl
  copy_kept target source more hmore := by
    rw [List.foldl_append, List.foldl_cons, RuleSlots.rule_foldl_edit,
      RuleTable.foldl_edit_of_target_ne hmore, RuleSlots.rule_edit]
    exact if_pos rfl
  expand_eq es' h start maxLen n r := by
    rw [Grammar.foldl_edit, Grammar.foldl_edit]
    simp only [h]

end Arbor

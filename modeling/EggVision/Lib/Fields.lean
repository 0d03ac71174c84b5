import Mathlib.Data.List.Basic
import Mathlib.Data.List.Infix

/-!
# Texts of fields

A text that consists of fields `key=value`, each with a separator before it, is often searched as a
text, for a key and what follows it. What such a search finds is a field, as long as neither keys
nor values have a separator or an equals sign of their own: the key that is searched for can only be
met at the end of the key of a field.

## Main definitions

* `fieldsText` — the text
* `lastAfter` — what follows the last occurrence of a pattern, as a greedy search finds it

## Main results

* `fieldsText_occurrence` — where a key with an equals sign occurs
* `infix_fieldsText_iff` — what it means that a key is found with a given first character
* `lastAfter_fieldsText` — what follows a key
-/

namespace Fields

variable {α : Type*} {sep eq : α}

/-- A field with the separator before it. -/
def fieldText (sep eq : α) (field : List α × List α) : List α :=
  sep :: (field.1 ++ eq :: field.2)

def fieldsText (sep eq : α) (fields : List (List α × List α)) : List α :=
  fields.flatMap (fieldText sep eq)

/-- Neither a separator nor an equals sign. -/
def IsWord (sep eq : α) (word : List α) : Prop := sep ∉ word ∧ eq ∉ word

/-- Fields with keys and values that can be told apart. -/
def AreFields (sep eq : α) (fields : List (List α × List α)) : Prop :=
  ∀ field ∈ fields, IsWord sep eq field.1 ∧ IsWord sep eq field.2

variable {fields : List (List α × List α)} {lead p w key : List α}

/-- Two texts that are cut at their first equals sign. -/
theorem append_cons_inj {l l' m m' : List α} (hl : eq ∉ l) (hl' : eq ∉ l')
    (h : l ++ eq :: m = l' ++ eq :: m') : l = l' ∧ m = m' := by
  induction l generalizing l' with
  | nil =>
    cases l' with
    | nil => exact ⟨rfl, (List.cons.inj h).2⟩
    | cons b l' => exact absurd ((List.cons.inj h).1 ▸ List.mem_cons_self) hl'
  | cons a l ih =>
    cases l' with
    | nil => exact absurd ((List.cons.inj h).1 ▸ List.mem_cons_self) hl
    | cons b l' =>
      obtain ⟨hab, h⟩ := List.cons.inj h
      obtain ⟨hll, hmm⟩ := ih (fun hmem => hl (List.mem_cons_of_mem a hmem))
        (fun hmem => hl' (List.mem_cons_of_mem b hmem)) h
      exact ⟨by rw [hab, hll], hmm⟩

/-- **An occurrence of a key is one of a field.** What stands before it reaches up to the key of the
field, and what stands behind it begins with the value. -/
theorem fieldsText_occurrence (hne : sep ≠ eq) (hfields : AreFields sep eq fields)
    (hlead : eq ∉ lead) (hkey : eq ∉ key)
    (h : p ++ key ++ eq :: w = lead ++ fieldsText sep eq fields) :
    ∃ before field after, fields = before ++ field :: after ∧
      p ++ key = lead ++ fieldsText sep eq before ++ sep :: field.1 ∧
      w = field.2 ++ fieldsText sep eq after := by
  induction fields generalizing lead p with
  | nil =>
    rw [fieldsText, List.flatMap_nil, List.append_nil] at h
    exact absurd (h ▸ List.mem_append_right _ List.mem_cons_self) hlead
  | cons field fields ih =>
    obtain ⟨hname, hvalue⟩ := hfields field List.mem_cons_self
    have hrest : AreFields sep eq fields := fun f hf => hfields f (List.mem_cons_of_mem field hf)
    have htext : lead ++ fieldsText sep eq (field :: fields) =
        (lead ++ sep :: field.1) ++ eq :: (field.2 ++ fieldsText sep eq fields) := by
      simp [fieldsText, fieldText]
    rw [htext] at h
    have hahead : eq ∉ lead ++ sep :: field.1 := by
      simp [hlead, hne.symm, hname.2]
    by_cases hp : eq ∈ p
    · -- the first equals sign is in `p`, and the occurrence is among the later fields
      obtain ⟨p₁, p₂, rfl, hp₁⟩ := List.eq_append_cons_of_mem hp
      have hcut : p₁ ++ eq :: (p₂ ++ key ++ eq :: w) =
          (lead ++ sep :: field.1) ++ eq :: (field.2 ++ fieldsText sep eq fields) := by
        rw [← h]
        simp
      obtain ⟨rfl, hlater⟩ := append_cons_inj hp₁ hahead hcut
      obtain ⟨before, found, after, rfl, hbefore, hw⟩ := ih hrest hvalue.2 hlater
      refine ⟨field :: before, found, after, rfl, ?_, hw⟩
      have hstep : fieldsText sep eq (field :: before) =
          sep :: (field.1 ++ eq :: (field.2 ++ fieldsText sep eq before)) := by
        simp [fieldsText, fieldText]
      rw [hstep]
      simp only [List.append_assoc, List.cons_append, List.append_cancel_left_eq,
        List.cons.injEq, true_and] at hbefore ⊢
      rw [hbefore]
    · have hnone : eq ∉ p ++ key := by
        simp [hp, hkey]
      obtain ⟨hahead, hw⟩ := append_cons_inj hnone hahead h
      exact ⟨[], field, fields, rfl, by simpa [fieldsText] using hahead, hw⟩

/-- A key that is found is at the end of the key of a field. -/
theorem suffix_of_append_eq (hsep : sep ∉ key) {name : List α}
    (h : p ++ key = lead ++ sep :: name) : key <:+ name := by
  have hkey : key <:+ lead ++ sep :: name := ⟨p, h⟩
  have hname : name <:+ lead ++ sep :: name := ⟨lead ++ [sep], by simp⟩
  rcases List.suffix_or_suffix_of_suffix hkey hname with hle | hle
  · exact hle
  · obtain ⟨front, rfl⟩ := hle
    rcases front.eq_nil_or_concat with rfl | ⟨front, c, rfl⟩
    · exact List.suffix_rfl
    · have hcut : (p ++ front) ++ [c] ++ name = lead ++ [sep] ++ name := by
        simpa using h
      have hc := List.append_inj_right' (List.append_cancel_right hcut) rfl
      rw [List.singleton_inj.mp hc] at hsep
      simp at hsep

/-- **What is found is a field.** A key with an equals sign and a character behind it is in the text
exactly if there is a field whose key ends with it, and whose value begins with the character. -/
theorem infix_fieldsText_iff {c : α} (hne : sep ≠ eq) (hfields : AreFields sep eq fields)
    (hlead : eq ∉ lead) (hkey : IsWord sep eq key) (hc : c ≠ sep) :
    key ++ [eq, c] <:+: lead ++ fieldsText sep eq fields ↔
      ∃ field ∈ fields, key <:+ field.1 ∧ field.2.head? = some c := by
  constructor
  · rintro ⟨p, rest, h⟩
    have hcut : p ++ key ++ eq :: (c :: rest) = lead ++ fieldsText sep eq fields := by
      simpa using h
    obtain ⟨before, field, after, rfl, hname, hvalue⟩ :=
      fieldsText_occurrence hne hfields hlead hkey.2 hcut
    refine ⟨field, by simp, suffix_of_append_eq hkey.1 hname, ?_⟩
    cases hvalues : field.2 with
    | nil =>
      -- behind an empty value there is a separator, or nothing
      rw [hvalues, List.nil_append] at hvalue
      cases after with
      | nil => cases hvalue
      | cons next after =>
        have hhead := (List.cons.inj hvalue).1
        exact absurd hhead hc
    | cons d value =>
      rw [hvalues, List.cons_append] at hvalue
      rw [(List.cons.inj hvalue).1, List.head?_cons]
  · rintro ⟨field, hmem, ⟨front, hname⟩, hhead⟩
    obtain ⟨before, after, rfl⟩ := List.append_of_mem hmem
    obtain ⟨value, hvalue⟩ := List.head?_eq_some_iff.mp hhead
    refine ⟨lead ++ fieldsText sep eq before ++ sep :: front, value ++ fieldsText sep eq after, ?_⟩
    simp [fieldsText, fieldText, ← hname, hvalue]

/-! ### A greedy search -/

section

variable [DecidableEq α]

/-- What follows the last occurrence of `pattern` with a good character behind it: `s/.*pattern…/`
of `sed` before it cuts off the rest. -/
def lastAfter (pattern : List α) (good : α → Bool) : List α → Option (List α)
  | [] => none
  | c :: text =>
    match lastAfter pattern good text with
    | some w => some w
    | none =>
      if pattern <+: c :: text ∧ ((c :: text).drop pattern.length).head?.any good = true then
        some ((c :: text).drop pattern.length)
      else none

variable {pattern text : List α} {good : α → Bool}

theorem lastAfter_eq_some (h : lastAfter pattern good text = some w) :
    (∃ p, p ++ pattern ++ w = text) ∧ w.head?.any good = true := by
  induction text with
  | nil => cases h
  | cons c text ih =>
    rw [lastAfter] at h
    split at h
    next hlater =>
      obtain rfl := Option.some.inj h
      obtain ⟨⟨p, hp⟩, hgood⟩ := ih hlater
      exact ⟨⟨c :: p, by rw [← hp]; rfl⟩, hgood⟩
    · split_ifs at h with hfound
      obtain ⟨⟨rest, hrest⟩, hgood⟩ := hfound
      obtain rfl := Option.some.inj h
      refine ⟨⟨[], ?_⟩, hgood⟩
      rw [← hrest]
      simp

theorem isSome_lastAfter (hpattern : pattern ≠ []) (hgood : w.head?.any good = true) :
    (lastAfter pattern good (p ++ pattern ++ w)).isSome = true := by
  induction p with
  | nil =>
    cases pattern with
    | nil => exact absurd rfl hpattern
    | cons c pattern =>
      show (lastAfter (c :: pattern) good (c :: (pattern ++ w))).isSome = true
      rw [lastAfter]
      split
      · rfl
      · have hdrop : (c :: (pattern ++ w)).drop (c :: pattern).length = w := by simp
        rw [if_pos ⟨⟨w, rfl⟩, by rw [hdrop]; exact hgood⟩]
        rfl
  | cons c p ih =>
    show (lastAfter pattern good (c :: (p ++ pattern ++ w))).isSome = true
    rw [lastAfter]
    obtain ⟨w', hw'⟩ := Option.isSome_iff_exists.mp ih
    rw [hw']
    rfl

/-- A list that is cut at the only member with some property. -/
theorem append_cons_unique {β : Type*} {P : β → Prop} {a b : β} {l l' m m' : List β} (hb : P b)
    (hl : ∀ c ∈ l, ¬ P c) (hm : ∀ c ∈ m, ¬ P c) (h : l' ++ b :: m' = l ++ a :: m) :
    b = a ∧ m' = m := by
  rcases List.append_eq_append_iff.mp h with ⟨k, rfl, hk⟩ | ⟨k, rfl, hk⟩
  · cases k with
    | nil => exact ⟨(List.cons.inj hk).1, (List.cons.inj hk).2⟩
    | cons c k =>
      obtain rfl := (List.cons.inj hk).1
      exact absurd hb (hl b (by simp))
  · cases k with
    | nil => exact ⟨(List.cons.inj hk).1.symm, (List.cons.inj hk).2.symm⟩
    | cons c k =>
      obtain ⟨-, rfl⟩ := List.cons.inj hk
      exact absurd hb (hm b (by simp))

/-- **What follows a key.** If only one field has the key, a search finds its value. -/
theorem lastAfter_fieldsText {before after : List (List α × List α)} {field : List α × List α}
    (hne : sep ≠ eq) (hfields : AreFields sep eq (before ++ field :: after)) (hlead : eq ∉ lead)
    (hgood : field.2.head?.any good = true) (hbefore : ∀ f ∈ before, f.1 ≠ field.1)
    (hafter : ∀ f ∈ after, f.1 ≠ field.1) :
    lastAfter (sep :: (field.1 ++ [eq])) good
        (lead ++ fieldsText sep eq (before ++ field :: after)) =
      some (field.2 ++ fieldsText sep eq after) := by
  have hword := (hfields field (by simp)).1
  have htext : lead ++ fieldsText sep eq (before ++ field :: after) =
      (lead ++ fieldsText sep eq before) ++ sep :: (field.1 ++ [eq]) ++
        (field.2 ++ fieldsText sep eq after) := by
    simp [fieldsText, fieldText]
  have hhead : (field.2 ++ fieldsText sep eq after).head?.any good = true := by
    cases hvalue : field.2 with
    | nil =>
      rw [hvalue] at hgood
      cases hgood
    | cons c value =>
      rw [hvalue] at hgood
      exact hgood
  obtain ⟨w, hw⟩ := Option.isSome_iff_exists.mp
    (isSome_lastAfter (p := lead ++ fieldsText sep eq before) (List.cons_ne_nil sep _) hhead)
  rw [← htext] at hw
  obtain ⟨⟨p, hp⟩, -⟩ := lastAfter_eq_some hw
  have hcut : p ++ (sep :: field.1) ++ eq :: w =
      lead ++ fieldsText sep eq (before ++ field :: after) := by
    rw [← hp]
    simp
  obtain ⟨before', field', after', hsplit, hname, rfl⟩ :=
    fieldsText_occurrence hne hfields hlead (by simp [hne.symm, hword.2]) hcut
  have hword' := (hfields field' (by rw [hsplit]; simp)).1
  have hsame : field'.1 = field.1 := by
    have hreverse := congrArg List.reverse hname
    simp only [List.reverse_append, List.reverse_cons, List.append_assoc,
      List.singleton_append] at hreverse
    have := (append_cons_inj (by simpa using hword.1) (by simpa using hword'.1) hreverse).1
    exact (List.reverse_injective this).symm
  obtain ⟨rfl, rfl⟩ :=
    append_cons_unique (P := fun f => f.1 = field.1) hsame hbefore hafter hsplit.symm
  exact hw

end

end Fields

import Mathlib.Data.List.DropRight
import Mathlib.Data.List.Nodup
import Wavefront.Config

/-!
# Overrides from the environment

The variables are looked up in a fixed order, and each one that is there and spells a flag moves its
switch at once. So a call that succeeds has moved exactly the switches whose variables are there.
A call that fails has moved those whose variables are looked up before the one that is no flag, and
no other; it does not undo them.

* `parseFlag_ok_iff`: which values are flags, said without the trimming.
* `Overridden`: the settings after the variables of a list have been looked up. One variable more is
  a step (`Overridden.cons_absent`, `Overridden.cons_present`), and the whole list is an induction
  (`applyOverrides_ends`).

Main statement: `applyEnv_overrides`.
-/

namespace Wavefront

/-! ## Blanks around a text -/

namespace Text

variable {front word back : List Char}

theorem trimEnd_append (hback : ∀ c ∈ back, isBlank c = true) :
    trimEnd (word ++ back) = trimEnd word := by
  have hreverse : ∀ c ∈ back.reverse, isBlank c = true :=
    fun c hc => hback c (List.mem_reverse.1 hc)
  rw [trimEnd, trimEnd, List.reverse_append, List.dropWhile_append_of_pos hreverse]

/-- Blanks around a text do not matter. -/
theorem trim_append (hfront : ∀ c ∈ front, isBlank c = true)
    (hback : ∀ c ∈ back, isBlank c = true) :
    trim (front ++ word ++ back) = trim word := by
  rw [trim, trim, List.append_assoc, List.dropWhile_append_of_pos hfront, List.dropWhile_append]
  split
  case isTrue h =>
    rw [List.isEmpty_iff.1 h, List.dropWhile_eq_nil_iff.2 hback]
  case isFalse => exact trimEnd_append hback

/-- All that is trimmed off is blank. -/
theorem exists_blanks (cs : List Char) : ∃ front back, cs = front ++ trim cs ++ back ∧
    (∀ c ∈ front, isBlank c = true) ∧ ∀ c ∈ back, isBlank c = true := by
  refine ⟨cs.takeWhile isBlank, (cs.dropWhile isBlank).rtakeWhile isBlank, ?_,
    fun _ => List.mem_takeWhile_imp, fun _ => List.mem_rtakeWhile_imp⟩
  have hend : trim cs ++ (cs.dropWhile isBlank).rtakeWhile isBlank = cs.dropWhile isBlank :=
    List.rdropWhile_append_rtakeWhile
  rw [List.append_assoc, hend, List.takeWhile_append_dropWhile]

/-- A letter is no blank in either case. -/
theorem isBlank_toLower (c : Char) : isBlank c.toLower = isBlank c := by
  by_cases h : c.val ≥ 'A'.val ∧ c.val ≤ 'Z'.val
  · have hlow : 65 ≤ c.toNat := h.1
    have hhigh : c.toNat ≤ 90 := h.2
    have hletters : ∀ n : Fin 26,
        isBlank (Char.ofNat (65 + n)).toLower = isBlank (Char.ofNat (65 + n)) := by decide
    have hletter := hletters ⟨c.toNat - 65, by omega⟩
    rwa [show 65 + (c.toNat - 65) = c.toNat by omega, Char.ofNat_toNat] at hletter
  · exact congrArg isBlank (dif_neg h)

theorem trim_map_toLower (cs : List Char) :
    trim (cs.map Char.toLower) = (trim cs).map Char.toLower := by
  have hblank : isBlank ∘ Char.toLower = isBlank := funext isBlank_toLower
  rw [trim, trim, trimEnd, trimEnd, List.dropWhile_map, hblank, ← List.map_reverse,
    List.dropWhile_map, hblank, List.map_reverse]

end Text

namespace Config

variable {lookup : String → Option String} {c c' : Config} {key value w : String} {s s' : Switch}
  {b : Bool} {applied rest : List (String × Switch)}

/-! ## Flags -/

/-- The words for a flag. -/
def flagWords : Bool → List String
  | true => ["1", "true", "yes", "on"]
  | false => ["0", "false", "no", "off", ""]

/-- The value is the word with blanks around it, its ASCII letters in any case. -/
def Spells (value w : String) : Prop :=
  ∃ front word back : List Char, value.toList = front ++ word ++ back ∧
    (∀ c ∈ front, Text.isBlank c = true) ∧ (∀ c ∈ back, Text.isBlank c = true) ∧
    word.map Char.toLower = w.toList

/-- A word without blanks around it is what all its spellings are looked at as. -/
theorem canonicalFlag_eq_iff (hw : Text.trim w.toList = w.toList) :
    canonicalFlag value = w ↔ Spells value w := by
  have hlist : canonicalFlag value = w ↔ (Text.trim value.toList).map Char.toLower = w.toList := by
    rw [canonicalFlag, ← String.toList_inj, String.toList_ofList]
  rw [hlist]
  constructor
  · intro h
    obtain ⟨front, back, hvalue, hfront, hback⟩ := Text.exists_blanks value.toList
    exact ⟨front, _, back, hvalue, hfront, hback, h⟩
  · rintro ⟨front, word, back, hvalue, hfront, hback, hword⟩
    rw [hvalue, Text.trim_append hfront hback, ← Text.trim_map_toLower, hword, hw]

theorem canonicalFlag_mem_iff :
    canonicalFlag value ∈ flagWords b ↔ ∃ w ∈ flagWords b, Spells value w := by
  have hwords : ∀ b, ∀ w ∈ flagWords b, Text.trim w.toList = w.toList := by decide
  constructor
  · intro h
    exact ⟨_, h, (canonicalFlag_eq_iff (hwords b _ h)).1 rfl⟩
  · rintro ⟨w, hw, hspells⟩
    rwa [(canonicalFlag_eq_iff (hwords b w hw)).2 hspells]

/-- A value is read as a flag when it spells one of its words. -/
theorem parseFlag_ok_iff : parseFlag key value = .ok b ↔ ∃ w ∈ flagWords b, Spells value w := by
  have hdisjoint : ∀ w ∈ flagWords false, w ∉ flagWords true := by decide
  have hcontains (b : Bool) :
      (flagWords b).contains (canonicalFlag value) = true ↔ canonicalFlag value ∈ flagWords b :=
    List.contains_iff_mem
  rw [← canonicalFlag_mem_iff]
  have hparse : parseFlag key value =
      if (flagWords true).contains (canonicalFlag value) then .ok true
      else if (flagWords false).contains (canonicalFlag value) then .ok false
      else .error ⟨key, canonicalFlag value⟩ := rfl
  rw [hparse]
  by_cases htrue : canonicalFlag value ∈ flagWords true
  · rw [if_pos ((hcontains true).2 htrue)]
    cases b with
    | true => exact iff_of_true rfl htrue
    | false => exact iff_of_false nofun fun hfalse => hdisjoint _ hfalse htrue
  · rw [if_neg (mt (hcontains true).1 htrue)]
    by_cases hfalse : canonicalFlag value ∈ flagWords false
    · rw [if_pos ((hcontains false).2 hfalse)]
      cases b with
      | true => exact iff_of_false nofun htrue
      | false => exact iff_of_true rfl hfalse
    · rw [if_neg (mt (hcontains false).1 hfalse)]
      cases b with
      | true => exact iff_of_false nofun htrue
      | false => exact iff_of_false nofun hfalse

/-! ## Overrides -/

theorem get_set (c : Config) (s s' : Switch) (b : Bool) :
    (c.set s b).get s' = if s' = s then b else c.get s' := by
  cases s <;> cases s' <;> rfl

/-- The settings `c'` are what the variables of a list make of `c`. -/
structure Overridden (lookup : String → Option String) (applied : List (String × Switch))
    (c c' : Config) : Prop where
  /-- a switch whose variable is there is as its flag says -/
  given : ∀ key s value, (key, s) ∈ applied → lookup key = some value →
    parseFlag key value = .ok (c'.get s)
  /-- every other switch is as before -/
  kept : ∀ s, (∀ key, (key, s) ∈ applied → lookup key = none) → c'.get s = c.get s

theorem overridden_nil : Overridden lookup [] c c :=
  ⟨fun _ _ _ h => absurd h List.not_mem_nil, fun _ _ => rfl⟩

/-- A variable that is not there changes nothing. -/
theorem Overridden.cons_absent (h : Overridden lookup rest c c') (hkey : lookup key = none) :
    Overridden lookup ((key, s) :: rest) c c' := by
  refine ⟨fun key' s' value hmem hvalue => ?_, fun s' hnone => ?_⟩
  · rcases List.mem_cons.1 hmem with heq | hmem
    · obtain ⟨rfl, rfl⟩ := Prod.mk.inj heq
      rw [hkey] at hvalue
      cases hvalue
    · exact h.given key' s' value hmem hvalue
  · exact h.kept s' fun key' hmem => hnone key' (List.mem_cons_of_mem _ hmem)

/-- A variable that is there moves its switch, and no later one moves it again. -/
theorem Overridden.cons_present (h : Overridden lookup rest (c.set s b) c')
    (hkey : lookup key = some value) (hflag : parseFlag key value = .ok b)
    (hs : s ∉ rest.map Prod.snd) : Overridden lookup ((key, s) :: rest) c c' := by
  have hset : c'.get s = b := by
    rw [h.kept s fun key' hmem => absurd (List.mem_map_of_mem hmem) hs, get_set, if_pos rfl]
  refine ⟨fun key' s' value' hmem hvalue => ?_, fun s' hnone => ?_⟩
  · rcases List.mem_cons.1 hmem with heq | hmem
    · obtain ⟨rfl, rfl⟩ := Prod.mk.inj heq
      obtain rfl := Option.some.inj (hkey.symm.trans hvalue)
      rw [hset]
      exact hflag
    · exact h.given key' s' value' hmem hvalue
  · have hne : s' ≠ s := by
      rintro rfl
      have habsent := hnone key List.mem_cons_self
      rw [hkey] at habsent
      cases habsent
    rw [h.kept s' fun key' hmem => hnone key' (List.mem_cons_of_mem _ hmem), get_set, if_neg hne]

/-- The variables of a list end in the settings they make, or at the first one that is no flag, in
the settings that those before it make. -/
theorem applyOverrides_ends (lookup : String → Option String) (c : Config)
    (hdistinct : (applied.map Prod.snd).Nodup) :
    (∃ c', applyOverrides lookup applied c = (c', none) ∧ Overridden lookup applied c c') ∨
    ∃ c' e before key s after value, applyOverrides lookup applied c = (c', some e) ∧
      applied = before ++ (key, s) :: after ∧ lookup key = some value ∧
      parseFlag key value = .error e ∧ Overridden lookup before c c' := by
  induction applied generalizing c with
  | nil => exact .inl ⟨c, rfl, overridden_nil⟩
  | cons entry rest ih =>
    obtain ⟨key, s⟩ := entry
    obtain ⟨hs, hrest⟩ := List.nodup_cons.1 hdistinct
    cases hkey : lookup key with
    | none =>
      have hstep : applyOverrides lookup ((key, s) :: rest) c = applyOverrides lookup rest c := by
        rw [applyOverrides, hkey]
      rw [hstep]
      rcases ih c hrest with
        ⟨c', hrun, h⟩ | ⟨c', e, before, key', s', after, value, hrun, rfl, h⟩
      · exact .inl ⟨c', hrun, h.cons_absent hkey⟩
      · obtain ⟨hkey', hflag, h⟩ := h
        exact .inr ⟨c', e, (key, s) :: before, key', s', after, value, hrun, rfl, hkey', hflag,
          h.cons_absent hkey⟩
    | some value =>
      cases hflag : parseFlag key value with
      | error e =>
        refine .inr ⟨c, e, [], key, s, rest, value, ?_, rfl, hkey, hflag, overridden_nil⟩
        simp only [applyOverrides, hkey, hflag]
      | ok b =>
        have hstep : applyOverrides lookup ((key, s) :: rest) c
            = applyOverrides lookup rest (c.set s b) := by
          simp only [applyOverrides, hkey, hflag]
        rw [hstep]
        rcases ih (c.set s b) hrest with
          ⟨c', hrun, h⟩ | ⟨c', e, before, key', s', after, value', hrun, rfl, h⟩
        · exact .inl ⟨c', hrun, h.cons_present hkey hflag hs⟩
        · obtain ⟨hkey', hflag', h⟩ := h
          have hs' : s ∉ before.map Prod.snd := fun hmem =>
            hs (by rw [List.map_append]; exact List.mem_append_left _ hmem)
          exact .inr ⟨c', e, (key, s) :: before, key', s', after, value', hrun, rfl, hkey', hflag',
            h.cons_present hkey hflag hs'⟩

/-- A call that succeeds has moved the switches whose variables are there, each as its flag says,
and no other one. A call that fails names the first variable whose value is no flag; it has moved
the switches whose variables are there before that one, and no other. It fails only if there is such
a variable, and a value is a flag if it spells one of the words. -/
theorem applyEnv_overrides (c : Config) (lookup : String → Option String) :
    (∀ c', c.applyEnv lookup = (c', none) → Overridden lookup overrides c c') ∧
    (∀ c' e, c.applyEnv lookup = (c', some e) → ∃ before key s after value,
      overrides = before ++ (key, s) :: after ∧ lookup key = some value ∧
      parseFlag key value = .error e ∧ Overridden lookup before c c') ∧
    ((c.applyEnv lookup).2 = none ↔ ∀ key s value, (key, s) ∈ overrides → lookup key = some value →
      ∃ b, parseFlag key value = .ok b) ∧
    ∀ key value b, parseFlag key value = .ok b ↔ ∃ w ∈ flagWords b, Spells value w := by
  rcases applyOverrides_ends lookup c (by decide : (overrides.map Prod.snd).Nodup) with
    ⟨d, hrun, h⟩ | ⟨d, e, before, key, s, after, value, hrun, hsplit, hkey, hflag, h⟩
  · have hrun : c.applyEnv lookup = (d, none) := hrun
    rw [hrun]
    refine ⟨fun c' heq => ?_, fun c' e heq => ?_,
      ⟨fun _ key s value hmem hvalue => ?_, fun _ => rfl⟩,
      fun _ _ _ => parseFlag_ok_iff⟩
    · obtain ⟨rfl, -⟩ := Prod.mk.inj heq
      exact h
    · cases heq
    · exact ⟨_, h.given key s value hmem hvalue⟩
  · have hrun : c.applyEnv lookup = (d, some e) := hrun
    rw [hrun]
    refine ⟨fun c' heq => ?_, fun c' e' heq => ?_, ⟨fun heq => ?_, fun hflags => ?_⟩,
      fun _ _ _ => parseFlag_ok_iff⟩
    · cases heq
    · obtain ⟨rfl, he⟩ := Prod.mk.inj heq
      obtain rfl := Option.some.inj he
      exact ⟨before, key, s, after, value, hsplit, hkey, hflag, h⟩
    · cases heq
    · -- the variable that ended the call would be a flag
      have hmem : (key, s) ∈ overrides := by
        rw [hsplit]
        exact List.mem_append_right _ List.mem_cons_self
      obtain ⟨b, hb⟩ := hflags key s value hmem hkey
      rw [hflag] at hb
      cases hb

/-- An environment with these two variables. -/
def twoVariables (strict flush : String) (key : String) : Option String :=
  [("LOCKSTEP_STRICT_MASKED_READ", strict), ("LOCKSTEP_FLUSH_DENORMALS", flush)].lookup key

/-- Both are flags, under blanks and capitals. -/
theorem applyEnv_overrides_capitals :
    let c : Config := ⟨false, true, false⟩
    let lookup := twoVariables " Yes\t" "OFF"
    c.applyEnv lookup = (⟨true, false, false⟩, none) ∧
      Overridden lookup overrides c ⟨true, false, false⟩ := by
  intro c lookup
  have hrun : c.applyEnv lookup = (⟨true, false, false⟩, none) := by decide +kernel
  exact ⟨hrun, (applyEnv_overrides c lookup).1 _ hrun⟩

/-- The second is no flag, and the switch of the first has been moved all the same. -/
theorem applyEnv_changes_on_failure :
    defaults.applyEnv (twoVariables "1" "maybe")
        = (⟨true, false, true⟩, some ⟨"LOCKSTEP_FLUSH_DENORMALS", "maybe"⟩) ∧
      (⟨true, false, true⟩ : Config) ≠ defaults :=
  ⟨by decide +kernel, by decide⟩

end Config

end Wavefront

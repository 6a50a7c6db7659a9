import Mathlib.Tactic.SplitIfs
import Worklog.Json.Printer
import Worklog.Json.Reader
import Worklog.Proofs.Run

namespace Worklog.Json

mutual

/-- A value without doubles and broken strings, whose objects have one member of a name. -/
def Plain : Json → Prop
  | .real _ | .broken => False
  | .arr items => PlainItems items
  | .obj members => (members.map (·.1)).Nodup ∧ PlainMembers members
  | _ => True

def PlainItems : List Json → Prop
  | [] => True
  | v :: rest => Plain v ∧ PlainItems rest

def PlainMembers : List (String × Json) → Prop
  | [] => True
  | (_, v) :: rest => Plain v ∧ PlainMembers rest

end

mutual

/-- How deep arrays and objects are nested in a value. -/
def nesting : Json → Nat
  | .arr items => nestingItems items + 1
  | .obj members => nestingMembers members + 1
  | _ => 0

def nestingItems : List Json → Nat
  | [] => 0
  | v :: rest => max (nesting v) (nestingItems rest)

def nestingMembers : List (String × Json) → Nat
  | [] => 0
  | (_, v) :: rest => max (nesting v) (nestingMembers rest)

end

variable {v : Json} {rest : List Char} {depth fuel : Nat}

theorem plainMembers_iff {members : List (String × Json)} :
    PlainMembers members ↔ ∀ m ∈ members, Plain m.2 := by
  induction members with
  | nil => simp [PlainMembers]
  | cons m members ih => simp [PlainMembers, ih]

theorem unit?_fixedHex {n : Nat} (h : n < 0x20) :
    ∃ a b c d, Digits.fixedHex 4 n = [a, b, c, d] ∧ unit? a b c d = some n := by
  have hall : ∀ n : Fin 0x20, ∃ a b c d, Digits.fixedHex 4 n = [a, b, c, d] ∧
      unit? a b c d = some n.val := fun n => ⟨_, _, _, _, rfl, by revert n; decide⟩
  exact hall ⟨n, h⟩

/-- Nothing waits for its partner in front of a character. -/
theorem settle_none (e : Char) : Scanned.settle none ∘ Scanned.push e = Scanned.push e := rfl

/-- One character is read back. -/
theorem scan_escapeChar (opening : Nat) (c : Char) {cs : List Char} (hcs : cs ≠ []) :
    scan opening none (escapeChar c ++ cs) = Scanned.push c <$> scan opening none cs := by
  have hnat {n : Nat} (h : c.toNat = n) : c = Char.ofNat n := h ▸ (Char.ofNat_toNat c).symm
  unfold escapeChar
  split_ifs with hquote hbackslash hnewline hreturn htab hbackspace hfeed hcontrol
  · simp [scan, shortEscape?, settle_none, hquote]
  · simp [scan, shortEscape?, settle_none, hbackslash]
  · simp [scan, shortEscape?, settle_none, hnewline]
  · simp [scan, shortEscape?, settle_none, hreturn]
  · simp [scan, shortEscape?, settle_none, htab]
  · simp [scan, shortEscape?, settle_none, hnat hbackspace]
  · simp [scan, shortEscape?, settle_none, hnat hfeed]
  · obtain ⟨a, b, x, d, hdigits, hunit⟩ := unit?_fixedHex hcontrol
    have hlow : isLow c.toNat = false := by simp [isLow]; omega
    have hhigh : isHigh c.toNat = false := by simp [isHigh]; omega
    rw [hdigits]
    simp [scan, hcs, hunit, hlow, hhigh, settle_none, Char.ofNat_toNat]
  · rw [List.singleton_append, scan.eq_def]
    split
    case h_6 heq =>
      obtain ⟨rfl, rfl⟩ := List.cons.inj heq
      rw [if_neg hcontrol, settle_none]
    all_goals simp_all

theorem scan_escaped (opening : Nat) (cs : List Char) (rest : List Char) :
    scan opening none (cs.flatMap escapeChar ++ '"' :: rest) = .ok ⟨cs, true, rest⟩ := by
  induction cs with
  | nil => rfl
  | cons c cs ih =>
    rw [List.flatMap_cons, List.append_assoc, scan_escapeChar opening c (by simp), ih]
    rfl

theorem readString_escaped (opening : Nat) (cs : List Char) (rest : List Char) :
    readString opening (cs.flatMap escapeChar ++ '"' :: rest) = .ok ⟨cs, true, rest⟩ := by
  rw [readString, scan_escaped]
  rfl

/-- What follows a value inside a text, or nothing: it goes on with no value. -/
def Closes (rest : List Char) : Prop := ∀ c ∈ rest.head?, c = ',' ∨ c = ']' ∨ c = '\x7d'

/-- The digits of a number begin with no zero, unless there is no other. -/
theorem toDigits_cases (n : Nat) :
    ∃ c cs, Nat.toDigits 10 n = c :: cs ∧ c.isDigit = true ∧ (c = '0' → cs = []) := by
  induction n using Nat.strongRecOn with
  | ind n ih =>
    by_cases hn : n < 10
    · refine ⟨n.digitChar, [], Nat.toDigits_of_lt_base hn, ?_, fun _ => rfl⟩
      rw [Nat.isDigit_digitChar, decide_eq_true hn]
    · have hdigits := Nat.toDigits_of_base_le (b := 10) (n := n) (by decide) (by omega)
      obtain ⟨c, cs, hhead, hdigit, hzero⟩ := ih (n / 10) (by omega)
      refine ⟨c, cs ++ [(n % 10).digitChar], by rw [hdigits, hhead]; rfl, hdigit, fun hc => ?_⟩
      -- The digits before the last one are those of a number that is not zero.
      have hvalue : Nat.ofDigitChars 10 (Nat.toDigits 10 (n / 10)) 0 = n / 10 :=
        Nat.ofDigitChars_ten_toDigits
      rw [hhead, hc, hzero hc] at hvalue
      have hnone : Nat.ofDigitChars 10 ['0'] 0 = 0 := rfl
      omega

theorem spanDigits_append {ds : List Char} (hds : ∀ c ∈ ds, c.isDigit = true)
    (hrest : ∀ c ∈ rest.head?, c.isDigit = false) : spanDigits (ds ++ rest) = (ds, rest) := by
  have hstop : rest.takeWhile Char.isDigit = [] ∧ rest.dropWhile Char.isDigit = rest := by
    cases rest with
    | nil => exact ⟨rfl, rfl⟩
    | cons c rest => simp [hrest c rfl]
  rw [spanDigits, List.takeWhile_append_of_pos hds, List.dropWhile_append_of_pos hds, hstop.1, hstop.2,
    List.append_nil]

theorem Closes.not_digit (h : Closes rest) : ∀ c ∈ rest.head?, c.isDigit = false := by
  intro c hc
  obtain rfl | rfl | rfl := h c hc <;> rfl

theorem Closes.readFraction (h : Closes rest) : readFraction rest = ([], rest) := by
  cases rest with
  | nil => rfl
  | cons c rest => obtain rfl | rfl | rfl := h c rfl <;> rfl

theorem Closes.readExponent (h : Closes rest) : readExponent rest = (none, rest) := by
  cases rest with
  | nil => rfl
  | cons c rest => obtain rfl | rfl | rfl := h c rfl <;> rfl

/-- Digits that something else follows are a whole number. -/
theorem readNumber_toDigits (place : Nat) (negative : Bool) (n : Nat) (hrest : Closes rest) :
    readNumber none place negative (Nat.toDigits 10 n ++ rest) =
      .ok (.int (if negative then -(n : Int) else n), rest) := by
  have hdigits : ∀ c ∈ Nat.toDigits 10 n, c.isDigit = true := fun c hc =>
    Nat.isDigit_of_mem_toDigits (by decide) (by decide) hc
  have hspan := spanDigits_append hdigits hrest.not_digit
  have hvalue : Nat.ofDigitChars 10 (Nat.toDigits 10 n) 0 = n := Nat.ofDigitChars_ten_toDigits
  obtain ⟨c, cs, hhead, -, hzero⟩ := toDigits_cases n
  rw [hhead] at hspan hvalue ⊢
  by_cases hc : c = '0'
  · obtain rfl := hzero hc
    subst hc
    simp [readNumber, hrest.readFraction, hrest.readExponent, hvalue]
  · rw [List.cons_append] at hspan ⊢
    simp [readNumber, hc, hspan, hrest.readFraction, hrest.readExponent, hvalue]

/-- No word begins like a number. -/
theorem words_of_digit {c : Char} {cs : List Char} (h : c.isDigit = true) :
    words.find? (fun w => decide (w.1 <+: c :: cs)) = none ∧
      words.find? (fun w => decide (w.1 <+: '-' :: c :: cs)) = none := by
  have hne (d : Char) (hd : d.isDigit = false) : ¬ d = c := by
    rintro rfl
    rw [h] at hd
    cases hd
  constructor <;>
    simp [words, hne 'n' rfl, hne 't' rfl, hne 'f' rfl, hne 'N' rfl, hne 'I' rfl, hne '-' rfl]

theorem readScalar_ofInt (n : Int) (hrest : Closes rest) :
    readScalar none (Digits.ofInt n ++ rest) = .ok (.int n, rest) := by
  unfold readScalar
  cases n with
  | ofNat n =>
    obtain ⟨c, cs, hhead, hdigit, -⟩ := toDigits_cases n
    have hread (place : Nat) := readNumber_toDigits place false n hrest
    have hminus : ¬ c = '-' := by
      rintro rfl
      cases hdigit
    rw [Digits.ofInt]
    rw [hhead, List.cons_append] at hread ⊢
    simp [(words_of_digit hdigit).1, hminus, hread]
  | negSucc n =>
    obtain ⟨c, cs, hhead, hdigit, -⟩ := toDigits_cases (n + 1)
    have hread (place : Nat) := readNumber_toDigits place true (n + 1) hrest
    rw [Digits.ofInt, List.cons_append]
    rw [hhead, List.cons_append] at hread ⊢
    simp [(words_of_digit hdigit).2, hread, Int.negSucc_eq]

/-- A written value begins with no blank, and with nothing that closes an array. -/
theorem render_head (hv : v.Plain) : ∃ c cs, v.render = c :: cs ∧ isGap c = false ∧ c ≠ ']' := by
  have hdigits (n : Nat) : ∃ c cs, Nat.toDigits 10 n = c :: cs ∧ isGap c = false ∧ c ≠ ']' := by
    obtain ⟨c, cs, hhead, hdigit, -⟩ := toDigits_cases n
    refine ⟨c, cs, hhead, ?_, ?_⟩
    · simp only [isGap, Bool.or_eq_false_iff, decide_eq_false_iff_not]
      refine ⟨⟨⟨?_, ?_⟩, ?_⟩, ?_⟩ <;> (rintro rfl; cases hdigit)
    · rintro rfl
      cases hdigit
  cases v with
  | null => exact ⟨_, _, rfl, rfl, by decide⟩
  | bool b => cases b <;> exact ⟨_, _, rfl, rfl, by decide⟩
  | int n =>
    cases n with
    | ofNat n => exact hdigits n
    | negSucc n => exact ⟨_, _, rfl, rfl, by decide⟩
  | real d => exact hv.elim
  | str s => exact ⟨_, _, rfl, rfl, by decide⟩
  | broken => exact hv.elim
  | arr items => exact ⟨_, _, rfl, rfl, by decide⟩
  | obj members => exact ⟨_, _, rfl, rfl, by decide⟩

theorem skipGap_render (hv : v.Plain) (rest : List Char) :
    skipGap (v.render ++ rest) = v.render ++ rest := by
  obtain ⟨c, cs, hhead, hgap, -⟩ := render_head hv
  rw [hhead, List.cons_append, skipGap, List.dropWhile_cons_of_neg (by simp [hgap])]

theorem skipGap_blank (cs : List Char) : skipGap (' ' :: cs) = skipGap cs := rfl

theorem length_render_pos (hv : v.Plain) : 0 < v.render.length := by
  obtain ⟨c, cs, hhead, -⟩ := render_head hv
  rw [hhead]
  exact Nat.succ_pos _

/-- The name of a member is read back with its colon. -/
theorem readName_rendered (name : String) (hv : v.Plain) (rest : List Char) :
    readName (renderString name.toList ++ ':' :: ' ' :: (v.render ++ rest)) =
      .ok (name, v.render ++ rest) := by
  rw [renderString, List.cons_append, List.cons_append, List.append_assoc, List.singleton_append, readName,
    readString_escaped]
  have hcolon : skipGap (':' :: ' ' :: (v.render ++ rest)) = ':' :: ' ' :: (v.render ++ rest) := rfl
  simp only [Bind.bind, Except.bind, hcolon, skipGap_blank, skipGap_render hv, String.ofList_toList]

theorem insert_of_not_mem {name : String} {members : List (String × Json)}
    (h : name ∉ members.map (·.1)) (v : Json) : insert name v members = members ++ [(name, v)] := by
  induction members with
  | nil => rfl
  | cons m members ih =>
    simp only [List.map_cons, List.mem_cons, not_or] at h
    rw [insert, if_neg (Ne.symm h.1), ih h.2, List.cons_append]

section Steps

variable {limit : Option Nat} {cs more : List Char} {items : List Json} {name : String}
  {before members : List (String × Json)}

/-- A value that begins neither like a string nor like an array nor like an object is a word or a number. -/
theorem readValue_of_scalar (depth fuel : Nat) (h : ∀ c ∈ cs.head?, c ≠ '"' ∧ c ≠ '[' ∧ c ≠ '\x7b') :
    readValue limit depth (fuel + 1) cs = readScalar limit cs := by
  cases cs with
  | nil => simp [readValue]
  | cons c cs =>
    obtain ⟨hquote, hbracket, hbrace⟩ := h c rfl
    simp [readValue, hquote, hbracket, hbrace]

theorem readValue_string (depth fuel : Nat) (s : String) (rest : List Char) :
    readValue limit depth (fuel + 1) (renderString s.toList ++ rest) = .ok (.str s, rest) := by
  rw [renderString, List.cons_append, List.cons_append, List.append_assoc, List.singleton_append]
  simp [readValue, readString_escaped, Bind.bind, Except.bind]

theorem readValue_int (depth fuel : Nat) (n : Int) (hrest : Closes rest) :
    readValue none depth (fuel + 1) (Digits.ofInt n ++ rest) = .ok (.int n, rest) := by
  rw [readValue_of_scalar, readScalar_ofInt n hrest]
  have hdigit (n : Nat) : ∀ c ∈ (Nat.toDigits 10 n ++ rest).head?, c ≠ '"' ∧ c ≠ '[' ∧ c ≠ '\x7b' := by
    obtain ⟨c, cs, hhead, hdigit, -⟩ := toDigits_cases n
    rw [hhead]
    rintro _ ⟨⟩
    refine ⟨?_, ?_, ?_⟩ <;> (rintro rfl; cases hdigit)
  cases n with
  | ofNat n => exact hdigit n
  | negSucc n =>
    rintro _ ⟨⟩
    decide

theorem readValue_items (h : readItems limit depth fuel cs = .ok (items, rest)) (hgap : skipGap cs = cs)
    (hopen : ∀ c ∈ cs.head?, c ≠ ']') :
    readValue limit (depth + 1) (fuel + 1) ('[' :: cs) = .ok (.arr items, rest) := by
  cases cs with
  | nil => simp [readValue, hgap, h, Bind.bind, Except.bind]
  | cons c cs => simp [readValue, hgap, hopen c rfl, h, Bind.bind, Except.bind]

theorem readValue_members (h : readMembers limit depth fuel [] ('"' :: cs) = .ok (members, rest)) :
    readValue limit (depth + 1) (fuel + 1) ('\x7b' :: '"' :: cs) = .ok (.obj members, rest) := by
  have hgap : skipGap ('"' :: cs) = '"' :: cs := rfl
  simp [readValue, hgap, h, Bind.bind, Except.bind]

theorem readItems_last (h : readValue limit depth fuel cs = .ok (v, ']' :: rest)) :
    readItems limit depth (fuel + 1) cs = .ok ([v], rest) := by
  have hgap : skipGap (']' :: rest) = ']' :: rest := rfl
  simp [readItems, h, hgap, Bind.bind, Except.bind]

theorem readItems_next (h : readValue limit depth fuel cs = .ok (v, ',' :: ' ' :: more))
    (hmore : skipGap more = more) (hitems : readItems limit depth fuel more = .ok (items, rest)) :
    readItems limit depth (fuel + 1) cs = .ok (v :: items, rest) := by
  have hgap : skipGap (',' :: ' ' :: more) = ',' :: ' ' :: more := rfl
  simp [readItems, h, hgap, skipGap_blank, hmore, hitems, Bind.bind, Except.bind]

theorem readMembers_last (hname : readName cs = .ok (name, more))
    (h : readValue limit depth fuel more = .ok (v, '\x7d' :: rest)) (hnew : name ∉ before.map (·.1)) :
    readMembers limit depth (fuel + 1) before cs = .ok (before ++ [(name, v)], rest) := by
  have hgap : skipGap ('\x7d' :: rest) = '\x7d' :: rest := rfl
  simp [readMembers, hname, h, hgap, insert_of_not_mem hnew, Bind.bind, Except.bind]

theorem readMembers_next {tail : List Char} (hname : readName cs = .ok (name, more))
    (h : readValue limit depth fuel more = .ok (v, ',' :: ' ' :: tail)) (hnew : name ∉ before.map (·.1))
    (htail : skipGap tail = tail)
    (hmembers : readMembers limit depth fuel (before ++ [(name, v)]) tail = .ok (members, rest)) :
    readMembers limit depth (fuel + 1) before cs = .ok (members, rest) := by
  have hgap : skipGap (',' :: ' ' :: tail) = ',' :: ' ' :: tail := rfl
  simp [readMembers, hname, h, hgap, insert_of_not_mem hnew, skipGap_blank, htail, hmembers, Bind.bind,
    Except.bind]

end Steps

theorem renderItems_head {items : List Json} (hitems : PlainItems items) (hne : items ≠ []) :
    ∃ c cs, renderItems items = c :: cs ∧ isGap c = false ∧ c ≠ ']' := by
  match items with
  | [v] => exact render_head hitems.1
  | v :: w :: items =>
    obtain ⟨c, cs, hhead, hgap, hclose⟩ := render_head hitems.1
    exact ⟨c, _, by rw [renderItems, hhead]; rfl, hgap, hclose⟩

theorem renderMembers_head {members : List (String × Json)} (hne : members ≠ []) :
    ∃ cs, renderMembers members = '"' :: cs := by
  match members with
  | [(name, v)] => exact ⟨_, rfl⟩
  | (name, v) :: m :: members => exact ⟨_, rfl⟩

/-- In a list without a name twice, no member before one has its name. -/
theorem name_not_mem_before {name : String} {before members : List (String × Json)}
    (h : ((before ++ (name, v) :: members).map (·.1)).Nodup) : name ∉ before.map (·.1) := by
  rw [List.map_append, List.nodup_append] at h
  exact fun hmem => h.2.2 name hmem name (List.mem_cons_self ..) rfl

mutual

/-- A written value is read back up to what closes it. One unit of fuel for each character is enough. -/
theorem readValue_render : ∀ (v : Json) (depth fuel : Nat) (rest : List Char), v.Plain →
    v.nesting ≤ depth → v.render.length ≤ fuel → Closes rest →
    readValue none depth fuel (v.render ++ rest) = .ok (v, rest)
  | v, _, 0, _, hv, _, hfuel, _ => by
    have hpos := length_render_pos hv
    omega
  | .null, depth, fuel + 1, rest, _, _, _, _ => by
    rw [readValue_of_scalar depth fuel (by simp [render])]
    simp [render, readScalar, words]
  | .bool b, depth, fuel + 1, rest, _, _, _, _ => by
    rw [readValue_of_scalar depth fuel (by cases b <;> simp [render])]
    cases b <;> simp [render, readScalar, words]
  | .int n, depth, fuel + 1, rest, _, _, _, hrest => readValue_int depth fuel n hrest
  | .str s, depth, fuel + 1, rest, _, _, _, _ => readValue_string depth fuel s rest
  | .arr [], depth, fuel + 1, rest, _, hdepth, _, _ => by
    rw [nesting] at hdepth
    obtain ⟨depth, rfl⟩ := Nat.exists_eq_add_of_le' (Nat.le_of_add_left_le hdepth)
    simp [readValue, render, renderItems, skipGap, isGap]
  | .arr (v :: items), depth, fuel + 1, rest, hv, hdepth, hfuel, _ => by
    rw [nesting] at hdepth
    rw [render, List.length_append, List.length_cons, List.length_singleton] at hfuel
    obtain ⟨depth, rfl⟩ := Nat.exists_eq_add_of_le' (Nat.le_of_add_left_le hdepth)
    obtain ⟨c, cs, hhead, hgap, hclose⟩ := renderItems_head hv (List.cons_ne_nil _ _)
    have hitems := readItems_render (v :: items) depth fuel rest (List.cons_ne_nil _ _) hv (by omega)
      (by omega)
    rw [render, List.cons_append, List.cons_append, List.append_assoc, List.singleton_append]
    refine readValue_items hitems ?_ ?_
    · rw [hhead, List.cons_append, skipGap, List.dropWhile_cons_of_neg (by simp [hgap])]
    · rw [hhead]
      rintro _ ⟨⟩
      exact hclose
  | .obj [], depth, fuel + 1, rest, _, hdepth, _, _ => by
    rw [nesting] at hdepth
    obtain ⟨depth, rfl⟩ := Nat.exists_eq_add_of_le' (Nat.le_of_add_left_le hdepth)
    simp [readValue, render, renderMembers, skipGap, isGap]
  | .obj (m :: members), depth, fuel + 1, rest, hv, hdepth, hfuel, _ => by
    rw [nesting] at hdepth
    rw [render, List.length_append, List.length_cons, List.length_singleton] at hfuel
    obtain ⟨depth, rfl⟩ := Nat.exists_eq_add_of_le' (Nat.le_of_add_left_le hdepth)
    obtain ⟨cs, hhead⟩ := renderMembers_head (List.cons_ne_nil m members)
    have hmembers := readMembers_render (m :: members) [] depth fuel rest (List.cons_ne_nil _ _) hv.2 hv.1
      (by omega) (by omega)
    rw [render, List.cons_append, List.cons_append, List.append_assoc, List.singleton_append]
    rw [hhead, List.cons_append] at hmembers ⊢
    exact readValue_members hmembers

theorem readItems_render : ∀ (items : List Json) (depth fuel : Nat) (rest : List Char), items ≠ [] →
    PlainItems items → nestingItems items ≤ depth → (renderItems items).length + 1 ≤ fuel →
    readItems none depth fuel (renderItems items ++ ']' :: rest) = .ok (items, rest)
  | [v], depth, fuel + 1, rest, _, hv, hdepth, hfuel => by
    rw [nestingItems] at hdepth
    rw [renderItems] at hfuel ⊢
    exact readItems_last (readValue_render v depth fuel _ hv.1 (by omega) (by omega) (by simp [Closes]))
  | v :: w :: items, depth, fuel + 1, rest, _, hv, hdepth, hfuel => by
    rw [nestingItems] at hdepth
    rw [renderItems, List.length_append, List.length_cons, List.length_cons] at hfuel
    rw [renderItems, List.append_assoc, List.cons_append, List.cons_append]
    obtain ⟨c, cs, hhead, hgap, -⟩ := renderItems_head hv.2 (List.cons_ne_nil w items)
    refine readItems_next
      (readValue_render v depth fuel _ hv.1 (by omega) (by omega) (by simp [Closes])) ?_
      (readItems_render (w :: items) depth fuel rest (List.cons_ne_nil _ _) hv.2 (by omega) (by omega))
    rw [hhead, List.cons_append, skipGap, List.dropWhile_cons_of_neg (by simp [hgap])]

theorem readMembers_render : ∀ (members before : List (String × Json)) (depth fuel : Nat)
    (rest : List Char), members ≠ [] → PlainMembers members → ((before ++ members).map (·.1)).Nodup →
    nestingMembers members ≤ depth → (renderMembers members).length + 1 ≤ fuel →
    readMembers none depth fuel before (renderMembers members ++ '\x7d' :: rest) = .ok (before ++ members, rest)
  | [(name, v)], before, depth, fuel + 1, rest, _, hv, hnames, hdepth, hfuel => by
    rw [nestingMembers] at hdepth
    rw [renderMembers, List.length_append, List.length_cons, List.length_cons] at hfuel
    rw [renderMembers, List.append_assoc, List.cons_append, List.cons_append]
    exact readMembers_last (readName_rendered name hv.1 _)
      (readValue_render v depth fuel _ hv.1 (by omega) (by omega) (by simp [Closes]))
      (name_not_mem_before hnames)
  | (name, v) :: m :: members, before, depth, fuel + 1, rest, _, hv, hnames, hdepth, hfuel => by
    rw [nestingMembers] at hdepth
    rw [renderMembers, List.length_append, List.length_append, List.length_cons, List.length_cons,
      List.length_cons, List.length_cons] at hfuel
    have hmembers := readMembers_render (m :: members) (before ++ [(name, v)]) depth fuel rest
      (List.cons_ne_nil _ _) hv.2 (by rwa [List.append_assoc]) (by omega) (by omega)
    rw [List.append_assoc, List.singleton_append] at hmembers
    obtain ⟨cs, hhead⟩ := renderMembers_head (List.cons_ne_nil m members)
    rw [renderMembers]
    simp only [List.append_assoc, List.cons_append]
    refine readMembers_next (readName_rendered name hv.1 _)
      (readValue_render v depth fuel _ hv.1 (by omega) (by omega) (by simp [Closes]))
      (name_not_mem_before hnames) ?_ hmembers
    rw [hhead]
    rfl

end

mutual

/-- A value has a character for every level of its nesting. -/
theorem nesting_le_length : ∀ v : Json, v.nesting ≤ v.render.length
  | .null | .bool _ | .int _ | .real _ | .str _ | .broken => Nat.zero_le _
  | .arr items => by
    have hitems := nestingItems_le_length items
    rw [nesting, render, List.length_append, List.length_cons, List.length_singleton]
    omega
  | .obj members => by
    have hmembers := nestingMembers_le_length members
    rw [nesting, render, List.length_append, List.length_cons, List.length_singleton]
    omega

theorem nestingItems_le_length : ∀ items : List Json, nestingItems items ≤ (renderItems items).length
  | [] => Nat.zero_le _
  | [v] => by simpa [nestingItems, renderItems] using nesting_le_length v
  | v :: w :: items => by
    have hv := nesting_le_length v
    have hitems := nestingItems_le_length (w :: items)
    rw [nestingItems, renderItems, List.length_append, List.length_cons, List.length_cons]
    omega

theorem nestingMembers_le_length : ∀ members : List (String × Json),
    nestingMembers members ≤ (renderMembers members).length
  | [] => Nat.zero_le _
  | [(name, v)] => by
    have hv := nesting_le_length v
    rw [nestingMembers, nestingMembers, renderMembers, List.length_append, List.length_cons, List.length_cons]
    omega
  | (name, v) :: m :: members => by
    have hv := nesting_le_length v
    have hmembers := nestingMembers_le_length (m :: members)
    rw [nestingMembers, renderMembers, List.length_append, List.length_append, List.length_cons,
      List.length_cons, List.length_cons, List.length_cons]
    omega

end

/-- What was written is read back. -/
theorem parse_text (hv : v.Plain) : parse v.text = .ok v := by
  have hread := readValue_render v v.render.length (2 * v.render.length + 2) [] hv (nesting_le_length v)
    (by omega) (by simp [Closes])
  have hgap : skipGap v.render = v.render := by simpa using skipGap_render hv []
  rw [List.append_nil] at hread
  rw [parse, text, String.toList_ofList, String.length_ofList, parseChars, readDocument, hgap, hread]
  rfl

theorem fixedHex_printable {n : Nat} (h : n < 0x20) : ∀ c ∈ Digits.fixedHex 4 n, 0x20 ≤ c.toNat := by
  have hall : ∀ n : Fin 0x20, (Digits.fixedHex 4 n).all (0x20 ≤ ·.toNat) = true := by decide
  exact fun c hc => of_decide_eq_true (List.all_eq_true.mp (hall ⟨n, h⟩) c hc)

/-- An escaped character has no control characters. -/
theorem escapeChar_printable (c : Char) : ∀ e ∈ escapeChar c, 0x20 ≤ e.toNat := by
  unfold escapeChar
  split_ifs with hquote hbackslash hnewline hreturn htab hbackspace hfeed hcontrol
  case neg => simpa using hcontrol
  all_goals simp
  exact fixedHex_printable hcontrol

theorem renderString_printable (cs : List Char) : ∀ c ∈ renderString cs, 0x20 ≤ c.toNat := by
  intro c hc
  obtain rfl | ⟨d, -, hd⟩ | rfl := by simpa [renderString, or_assoc] using hc
  · decide
  · exact escapeChar_printable d c hd
  · decide

theorem ofInt_printable (n : Int) : ∀ c ∈ Digits.ofInt n, 0x20 ≤ c.toNat := by
  have hdigits (n : Nat) : ∀ c ∈ Nat.toDigits 10 n, 0x20 ≤ c.toNat := fun c hc => by
    have hdigit := Nat.isDigit_of_mem_toDigits (by decide) (by decide) hc
    simp only [Char.isDigit, Bool.and_eq_true, decide_eq_true_eq] at hdigit
    exact Nat.le_trans (by decide) hdigit.1
  cases n with
  | ofNat n => exact hdigits n
  | negSucc n =>
    intro c hc
    obtain rfl | hc := List.mem_cons.mp hc
    · decide
    · exact hdigits _ c hc

mutual

/-- A written value has no control characters, so it is one line. -/
theorem render_printable : ∀ v : Json, v.Plain → ∀ c ∈ v.render, 0x20 ≤ c.toNat
  | .null, _ => by simp [render]
  | .bool true, _ => by simp [render]
  | .bool false, _ => by simp [render]
  | .int n, _ => ofInt_printable n
  | .str s, _ => renderString_printable s.toList
  | .arr items, hv => fun c hc => by
    obtain rfl | hc | rfl := by simpa [render, or_assoc] using hc
    · decide
    · exact renderItems_printable items hv c hc
    · decide
  | .obj members, hv => fun c hc => by
    obtain rfl | hc | rfl := by simpa [render, or_assoc] using hc
    · decide
    · exact renderMembers_printable members hv.2 c hc
    · decide

theorem renderItems_printable : ∀ items : List Json, PlainItems items →
    ∀ c ∈ renderItems items, 0x20 ≤ c.toNat
  | [], _ => by simp [renderItems]
  | [v], hv => render_printable v hv.1
  | v :: w :: items, hv => fun c hc => by
    obtain hc | rfl | rfl | hc := by simpa [renderItems] using hc
    · exact render_printable v hv.1 c hc
    · decide
    · decide
    · exact renderItems_printable (w :: items) hv.2 c hc

theorem renderMembers_printable : ∀ members : List (String × Json), PlainMembers members →
    ∀ c ∈ renderMembers members, 0x20 ≤ c.toNat
  | [], _ => by simp [renderMembers]
  | [(name, v)], hv => fun c hc => by
    obtain hc | rfl | rfl | hc := by simpa [renderMembers] using hc
    · exact renderString_printable name.toList c hc
    · decide
    · decide
    · exact render_printable v hv.1 c hc
  | (name, v) :: m :: members, hv => fun c hc => by
    obtain hc | rfl | rfl | hc | rfl | rfl | hc := by simpa [renderMembers] using hc
    · exact renderString_printable name.toList c hc
    · decide
    · decide
    · exact render_printable v hv.1 c hc
    · decide
    · decide
    · exact renderMembers_printable (m :: members) hv.2 c hc

end

theorem text_printable (hv : v.Plain) : ∀ c ∈ v.text.toList, 0x20 ≤ c.toNat := by
  rw [text, String.toList_ofList]
  exact render_printable v hv

end Worklog.Json

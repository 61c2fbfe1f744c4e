import Kikimora.Net.Addr
import Mathlib.Data.List.Basic

/-!
# Addresses as text

Printing an address and parsing the text gives the address back. The identities of
routes and parks keep their next hops as text, so every comparison of a next hop
that was written with one that is read back rests on this.
-/

namespace Kikimora.Net

-- === Numbers ===

section

variable {n : Nat}

theorem hexValue_digitChar {d : Nat} (h : d < 16) : hexValue (Nat.digitChar d) = some d := by
  revert d
  decide

/-- The hexadecimal digits of a number are read as it. -/
theorem foldlM_toDigits (n : Nat) :
    (Nat.toDigits 16 n).foldlM (fun acc c => (hexValue c).map (acc * 16 + ·)) 0 = some n := by
  induction n using Nat.strongRecOn with
  | ind n ih =>
    by_cases h : n < 16
    · rw [Nat.toDigits_of_lt_base h]
      simp [hexValue_digitChar h]
    rw [Nat.toDigits_of_base_le (by decide) (not_lt.mp h), List.foldlM_append,
      ih (n / 16) (by omega)]
    simp [hexValue_digitChar (Nat.mod_lt n (by decide : 0 < 16))]
    omega

theorem exists_digit_of_mem_toDigits {c : Char} (h : c ∈ Nat.toDigits 16 n) :
    ∃ d < 16, c = Nat.digitChar d := by
  induction n using Nat.strongRecOn with
  | ind n ih =>
    by_cases hn : n < 16
    · rw [Nat.toDigits_of_lt_base hn, List.mem_singleton] at h
      exact ⟨n, hn, h⟩
    rw [Nat.toDigits_of_base_le (by decide) (not_lt.mp hn), List.mem_append,
      List.mem_singleton] at h
    rcases h with h | h
    · exact ih (n / 16) (by omega) h
    · exact ⟨n % 16, Nat.mod_lt n (by decide), h⟩

theorem takeHex_field {field rest : List Char} (hne : field ≠ [])
    (hhex : ∀ c ∈ field, (hexValue c).isSome = true) (hlength : field.length ≤ 4)
    (hvalue : field.foldlM (fun acc c => (hexValue c).map (acc * 16 + ·)) 0 = some n)
    (hrest : ∀ c ∈ rest.head?, hexValue c = none) : takeHex (field ++ rest) = some (n, rest) := by
  have hfield : (field ++ rest).takeWhile (fun c => (hexValue c).isSome) = field := by
    rw [List.takeWhile_append_of_pos hhex]
    cases rest with
    | nil => simp
    | cons c rest => simp [hrest c rfl]
  unfold takeHex
  simp only [hfield, List.drop_left, hvalue, Option.map_some]
  simp [hne, hlength]

/-- A printed group is read back up to the next separator. -/
theorem takeHex_append (h : n < 2 ^ 16) {rest : List Char}
    (hrest : ∀ c ∈ rest.head?, hexValue c = none) :
    takeHex (Nat.toDigits 16 n ++ rest) = some (n, rest) := by
  refine takeHex_field Nat.toDigits_ne_nil (fun c hc => ?_) ?_ (foldlM_toDigits n) hrest
  · obtain ⟨d, hd, rfl⟩ := exists_digit_of_mem_toDigits hc
    rw [hexValue_digitChar hd]
    rfl
  · exact (Nat.length_toDigits_le_iff (by decide) (by decide)).mpr h

end

-- === Octets ===

theorem splitChars_of_not_mem {sep : Char} {cs : List Char} (h : sep ∉ cs) :
    splitChars sep cs = [cs] := by
  induction cs with
  | nil => rfl
  | cons c cs ih =>
    rw [List.mem_cons, not_or] at h
    rw [splitChars, if_neg (Ne.symm h.1), ih h.2]

theorem splitChars_append {sep : Char} {field : List Char} (h : sep ∉ field) (rest : List Char) :
    splitChars sep (field ++ sep :: rest) = field :: splitChars sep rest := by
  induction field with
  | nil => simp [splitChars]
  | cons c field ih =>
    rw [List.mem_cons, not_or] at h
    rw [List.cons_append, splitChars, if_neg (Ne.symm h.1), ih h.2]

def octet (x : BitVec 32) (i : Nat) : Nat := x.toNat / 2 ^ (8 * (3 - i)) % 256

theorem parseOctet_toDigits {n : Nat} (h : n < 256) : parseOctet (Nat.toDigits 10 n) = some n := by
  revert n
  decide +kernel

theorem isDigit_of_mem_decimal {n : Nat} {c : Char} (h : c ∈ Nat.toDigits 10 n) :
    c.isDigit = true :=
  Nat.isDigit_of_mem_toDigits (by decide) (by decide) h

theorem v4String_toList (x : BitVec 32) : (v4String x).toList =
    Nat.toDigits 10 (octet x 0) ++ '.' :: (Nat.toDigits 10 (octet x 1) ++ '.' ::
      (Nat.toDigits 10 (octet x 2) ++ '.' :: Nat.toDigits 10 (octet x 3))) := by
  rw [v4String, String.toList_intercalate]
  simp [List.range_succ, List.intercalate, octet, Nat.toString_eq_repr]

/-- Dotted text is read back. -/
theorem parseIPv4_v4String (x : BitVec 32) : parseIPv4 (v4String x).toList = some x := by
  have hdot : ∀ i, '.' ∉ Nat.toDigits 10 (octet x i) := fun i hmem =>
    absurd (isDigit_of_mem_decimal hmem) (by decide)
  have hoctet : ∀ i, parseOctet (Nat.toDigits 10 (octet x i)) = some (octet x i) := fun i =>
    parseOctet_toDigits (Nat.mod_lt _ (by decide))
  have hvalue : ((octet x 0 * 256 + octet x 1) * 256 + octet x 2) * 256 + octet x 3 = x.toNat := by
    have hx := x.isLt
    simp only [octet]
    omega
  rw [parseIPv4, v4String_toList, splitChars_append (hdot 0), splitChars_append (hdot 1),
    splitChars_append (hdot 2), splitChars_of_not_mem (hdot 3)]
  simp only [List.mapM_cons, List.mapM_nil, hoctet, Option.pure_def, Option.bind_eq_bind,
    Option.bind_some, hvalue, BitVec.ofNat_toNat, BitVec.setWidth_eq]

-- === Groups ===

section

/-- Groups printed between colons. -/
def hexText : List Nat → List Char
  | [] => []
  | [g] => Nat.toDigits 16 g
  | g :: gs => Nat.toDigits 16 g ++ ':' :: hexText gs

variable {gs : List Nat}

theorem hexText_eq (gs : List Nat) : (":".intercalate (gs.map hexString)).toList = hexText gs := by
  rw [String.toList_intercalate]
  induction gs with
  | nil => rfl
  | cons g gs ih =>
    cases gs with
    | nil => simp [hexText, hexString, List.intercalate]
    | cons g' gs =>
      rw [hexText, ← ih]
      · simp [hexString, List.intercalate]
      · nofun

theorem hexText_cons {g : Nat} (h : gs ≠ []) :
    hexText (g :: gs) = Nat.toDigits 16 g ++ ':' :: hexText gs := by
  cases gs with
  | nil => exact absurd rfl h
  | cons g' gs => rfl

theorem head_hexText (h : gs ≠ []) : ∃ d < 16, ∃ rest, hexText gs = Nat.digitChar d :: rest := by
  obtain ⟨g, gs, rfl⟩ := List.exists_cons_of_ne_nil h
  have hfirst : ∃ d < 16, ∃ rest, Nat.toDigits 16 g = Nat.digitChar d :: rest := by
    obtain ⟨c, rest, hc⟩ := List.exists_cons_of_ne_nil (Nat.toDigits_ne_nil (b := 16) (n := g))
    obtain ⟨d, hd, rfl⟩ := exists_digit_of_mem_toDigits (hc ▸ List.mem_cons_self)
    exact ⟨d, hd, rest, hc⟩
  obtain ⟨d, hd, rest, hrest⟩ := hfirst
  cases gs with
  | nil => exact ⟨d, hd, rest, hrest⟩
  | cons g' gs =>
    exact ⟨d, hd, rest ++ ':' :: hexText (g' :: gs), by rw [hexText, hrest]; rfl; nofun⟩

theorem digitChar_ne_colon {d : Nat} (h : d < 16) : Nat.digitChar d ≠ ':' := by
  revert d
  decide

section

variable {fuel : Nat} {gs : List Nat} {ellipsis : Option Nat} {cs more : List Char} {g : Nat}

theorem parseGroups_last (hspace : gs.length < 8) (htake : takeHex cs = some (g, [])) :
    parseGroups (fuel + 1) gs ellipsis cs = some (gs ++ [g], ellipsis) := by
  rw [parseGroups, if_neg (not_le.mpr hspace), htake]
  rfl

theorem parseGroups_colon (hspace : gs.length < 8) (htake : takeHex cs = some (g, ':' :: more))
    (hmore : ∃ c rest, more = c :: rest ∧ c ≠ ':') :
    parseGroups (fuel + 1) gs ellipsis cs = parseGroups fuel (gs ++ [g]) ellipsis more := by
  obtain ⟨c, rest, rfl, hc⟩ := hmore
  rw [parseGroups, if_neg (not_le.mpr hspace), htake, Option.bind_some]
  dsimp only
  split
  · next heq => cases heq
  · next heq => cases heq
  · next heq => cases heq
  · next heq =>
    simp only [List.cons.injEq] at heq
    exact absurd heq.2.1 hc
  · next heq =>
    cases heq
    rfl
  · next hother => exact absurd rfl (hother _)

theorem parseGroups_ellipsis (hspace : gs.length < 8)
    (htake : takeHex cs = some (g, ':' :: ':' :: more)) :
    parseGroups (fuel + 1) gs none cs =
      if more.isEmpty then some (gs ++ [g], some (gs.length + 1))
      else parseGroups fuel (gs ++ [g]) (some (gs.length + 1)) more := by
  rw [parseGroups, if_neg (not_le.mpr hspace), htake]
  rfl

/-- The last two groups in dotted form. -/
theorem parseGroups_dotted (hspace : gs.length < 8) {rest : List Char}
    (htake : takeHex cs = some (g, '.' :: rest))
    (hplace : ((ellipsis = none && gs.length ≠ 6) || 6 < gs.length) = false) :
    parseGroups (fuel + 1) gs ellipsis cs = (parseIPv4 cs).map fun x =>
      (gs ++ [x.toNat / 2 ^ 16, x.toNat % 2 ^ 16], ellipsis) := by
  rw [parseGroups, if_neg (not_le.mpr hspace), htake, Option.bind_some]
  dsimp only
  rw [if_neg (by simpa using hplace)]
  rfl

end

/-- The rounds for all groups but the last one. -/
theorem parseGroups_init {hs : List Nat} (hlt : ∀ g ∈ hs, g < 2 ^ 16)
    (hroom : gs.length + hs.length ≤ 8) (fuel last : Nat) (ellipsis : Option Nat)
    (tail : List Char) :
    parseGroups (fuel + hs.length) gs ellipsis (hexText (hs ++ [last]) ++ tail) =
      parseGroups fuel (gs ++ hs) ellipsis (Nat.toDigits 16 last ++ tail) := by
  induction hs generalizing gs with
  | nil => rw [List.append_nil]; rfl
  | cons g hs ih =>
    rw [List.length_cons] at hroom
    rw [List.forall_mem_cons] at hlt
    obtain ⟨d, hd, rest, hrest⟩ := head_hexText (List.append_ne_nil_of_right_ne_nil hs
      (List.cons_ne_nil last []))
    have hcolon : hexText (g :: hs ++ [last]) ++ tail =
        Nat.toDigits 16 g ++ ':' :: (hexText (hs ++ [last]) ++ tail) := by
      rw [List.cons_append, hexText_cons (by simp), List.append_assoc]
      rfl
    rw [hcolon, List.length_cons, ← Nat.add_assoc, parseGroups_colon (by omega)
      (takeHex_append hlt.1 (by simp; decide))
      ⟨_, rest ++ tail, by rw [hrest]; rfl, digitChar_ne_colon hd⟩, ih hlt.2
      (by simp only [List.length_append, List.length_singleton]; omega), List.append_assoc]
    rfl

theorem parseGroups_hexText {hs : List Nat} (hne : hs ≠ []) (hlt : ∀ g ∈ hs, g < 2 ^ 16)
    {fuel : Nat} (hfuel : hs.length ≤ fuel) (hroom : gs.length + hs.length ≤ 8)
    (ellipsis : Option Nat) :
    parseGroups fuel gs ellipsis (hexText hs) = some (gs ++ hs, ellipsis) := by
  obtain ⟨hs, g, rfl⟩ := (List.eq_nil_or_concat' hs).resolve_left hne
  rw [List.length_append, List.length_singleton] at hfuel hroom
  obtain ⟨fuel, rfl⟩ := Nat.exists_eq_add_of_le' hfuel
  rw [List.forall_mem_append] at hlt
  rw [← List.append_nil (hexText _), ← Nat.add_assoc, Nat.add_right_comm,
    parseGroups_init hlt.1 (by omega), parseGroups_last (by simp; omega)
      (takeHex_append (hlt.2 g (by simp)) (by simp)), List.append_assoc]

/-- Groups on both sides of an ellipsis. -/
theorem parseGroups_hexText_ellipsis {hs ts : List Nat} (hne : hs ≠ [])
    (hlt : ∀ g ∈ hs ++ ts, g < 2 ^ 16) {fuel : Nat} (hfuel : hs.length + ts.length ≤ fuel)
    (hroom : gs.length + hs.length + ts.length ≤ 8) :
    parseGroups fuel gs none (hexText hs ++ ':' :: ':' :: hexText ts) =
      some (gs ++ hs ++ ts, some (gs.length + hs.length)) := by
  obtain ⟨hs, g, rfl⟩ := (List.eq_nil_or_concat' hs).resolve_left hne
  rw [List.length_append, List.length_singleton] at hfuel hroom
  obtain ⟨fuel, rfl⟩ : ∃ n, fuel = n + 1 + hs.length := ⟨fuel - 1 - hs.length, by omega⟩
  rw [List.forall_mem_append, List.forall_mem_append] at hlt
  rw [parseGroups_init hlt.1.1 (by omega), parseGroups_ellipsis (by simp; omega)
    (takeHex_append (hlt.1.2 g (by simp)) (by simp; decide))]
  by_cases hts : ts = []
  · subst hts
    simp [hexText, Nat.add_assoc]
  obtain ⟨d, hd, rest, hrest⟩ := head_hexText hts
  have hsome : (hexText ts).isEmpty = false := by rw [hrest]; rfl
  rw [hsome, if_neg Bool.false_ne_true, parseGroups_hexText hts hlt.2 (by omega)
    (by simp; omega)]
  simp [Nat.add_assoc]

end

-- === Zero runs ===

theorem zeroRun_spec (gs : List Nat) :
    zeroRun gs ≤ gs.length ∧ gs = List.replicate (zeroRun gs) 0 ++ gs.drop (zeroRun gs) := by
  induction gs with
  | nil => exact ⟨le_rfl, rfl⟩
  | cons g gs ih =>
    cases g with
    | zero =>
      rw [zeroRun, List.length_cons, List.replicate_succ, List.drop_succ_cons, List.cons_append,
        ← ih.2]
      exact ⟨Nat.succ_le_succ ih.1, rfl⟩
    | succ n => exact ⟨Nat.zero_le _, rfl⟩

/-- The run that is left out has two zero groups or more. -/
theorem longestZeroRun_spec {gs : List Nat} {start l : Nat}
    (h : longestZeroRun gs = some (start, l)) : 2 ≤ l ∧ l = zeroRun (gs.drop start) := by
  unfold longestZeroRun at h
  refine List.foldlRecOn (List.range gs.length) _ (b := none) (motive := fun best : Option _ =>
    ∀ r ∈ best, 2 ≤ r.2 ∧ r.2 = zeroRun (gs.drop r.1)) (by simp) (fun best hbest i _ => ?_)
    (start, l) h
  dsimp only
  split
  · next hlong =>
    intro r hr
    cases hr
    simp only [Bool.and_eq_true, decide_eq_true_eq] at hlong
    exact ⟨hlong.1, rfl⟩
  · exact hbest

theorem groups_length (x : BitVec 128) : (groups x).length = 8 := by
  simp [groups]

theorem groups_lt (x : BitVec 128) : ∀ g ∈ groups x, g < 2 ^ 16 := by
  intro g hg
  obtain ⟨i, _, rfl⟩ := List.mem_map.mp hg
  exact Nat.mod_lt _ (by decide)

/-- The groups are all of the address. -/
theorem ofGroups_groups (x : BitVec 128) : ofGroups (groups x) = x := by
  have hx := x.isLt
  unfold ofGroups groups
  simp only [List.range_succ, List.range_zero, List.nil_append, List.cons_append, List.map_cons,
    List.map_nil, List.foldl_cons, List.foldl_nil]
  apply BitVec.eq_of_toNat_eq
  rw [BitVec.toNat_ofNat]
  omega

/-- The text of an IPv6 address that is not mapped: all groups, or those around a run
    of zeros. -/
theorem v6String_toList (x : BitVec 128) : (v6String x).toList = hexText (groups x) ∨
    ∃ hs ts, (v6String x).toList = hexText hs ++ ':' :: ':' :: hexText ts ∧
      hs.length + ts.length < 8 ∧
      groups x = hs ++ List.replicate (8 - (hs ++ ts).length) 0 ++ ts := by
  cases hrun : longestZeroRun (groups x) with
  | none =>
    simp only [v6String, hrun]
    exact .inl (hexText_eq _)
  | some r =>
    obtain ⟨start, l⟩ := r
    obtain ⟨hlong, hl⟩ := longestZeroRun_spec hrun
    obtain ⟨hle, hzeros⟩ := zeroRun_spec ((groups x).drop start)
    rw [← hl] at hle hzeros
    rw [List.length_drop, groups_length] at hle
    refine .inr ⟨(groups x).take start, (groups x).drop (start + l), ?_, ?_, ?_⟩
    · simp only [v6String, hrun, String.toList_append, hexText_eq]
      rw [List.append_assoc]
      rfl
    · simp only [List.length_take, List.length_drop, groups_length]
      omega
    have hcount : 8 - ((groups x).take start ++ (groups x).drop (start + l)).length = l := by
      simp only [List.length_append, List.length_take, List.length_drop, groups_length]
      omega
    rw [hcount, List.append_assoc, ← List.drop_drop, ← hzeros, List.take_append_drop]

-- === Addresses ===

section

/-- An IPv6 address without its zone. -/
def parseBody (body : List Char) : Option (List Nat) :=
  (match body with
    | [':', ':'] => some ([], some 0)
    | ':' :: ':' :: more => parseGroups 9 [] (some 0) more
    | _ => parseGroups 9 [] none body).bind expandGroups

variable {c : Char}

theorem parseIPv6_eq {body : List Char} (h : '%' ∉ body) (zone : String) :
    parseIPv6 (body ++ if zone = "" then [] else '%' :: zone.toList) =
      (parseBody body).map fun gs => .v6 (ofGroups gs) zone := by
  have hbody : ∀ rest : List Char, (∀ c ∈ rest.head?, c = '%') →
      (body ++ rest).takeWhile (· ≠ '%') = body := by
    intro rest hrest
    rw [List.takeWhile_append_of_pos fun c hc => by
      simpa using fun heq : c = '%' => h (heq ▸ hc)]
    cases rest with
    | nil => simp
    | cons c rest => simp [hrest c rfl]
  unfold parseIPv6
  split
  · next hzone =>
    rw [hbody [] (by simp)]
    dsimp only
    rw [List.drop_left, hzone]
    rfl
  · next hzone =>
    rw [hbody _ (by simp)]
    dsimp only
    rw [List.drop_left]
    have hne : '%' :: zone.toList ≠ ['%'] := fun heq =>
      hzone (String.toList_injective (List.cons.inj heq).2)
    simp only [if_neg hne, List.drop_succ_cons, List.drop_zero, String.ofList_toList]
    rfl

theorem parseBody_digit {d : Nat} (h : d < 16) (rest : List Char) :
    parseBody (Nat.digitChar d :: rest) =
      (parseGroups 9 [] none (Nat.digitChar d :: rest)).bind expandGroups := by
  unfold parseBody
  split
  · next heq => exact absurd (List.cons.inj heq).1 (digitChar_ne_colon h)
  · next heq => exact absurd (List.cons.inj heq).1 (digitChar_ne_colon h)
  · rfl

theorem parseBody_hexText {gs : List Nat} (hlength : gs.length = 8) (hlt : ∀ g ∈ gs, g < 2 ^ 16) :
    parseBody (hexText gs) = some gs := by
  have hne : gs ≠ [] := by
    rintro rfl
    cases hlength
  obtain ⟨d, hd, rest, hrest⟩ := head_hexText hne
  have hparse : parseGroups 9 [] none (hexText gs) = some ([] ++ gs, none) :=
    parseGroups_hexText hne hlt (by omega) (by simp [hlength]) none
  rw [hrest] at hparse ⊢
  rw [parseBody_digit hd, hparse]
  simp [expandGroups, hlength]

theorem parseBody_ellipsis {hs ts : List Nat} (hroom : hs.length + ts.length < 8)
    (hlt : ∀ g ∈ hs ++ ts, g < 2 ^ 16) :
    parseBody (hexText hs ++ ':' :: ':' :: hexText ts) =
      some (hs ++ List.replicate (8 - (hs ++ ts).length) 0 ++ ts) := by
  have hexpand : expandGroups (hs ++ ts, some hs.length) =
      some (hs ++ List.replicate (8 - (hs ++ ts).length) 0 ++ ts) := by
    have hlength : (hs ++ ts).length < 8 := by simpa using hroom
    simp only [expandGroups, if_pos hlength, List.take_left, List.drop_left]
  by_cases hhs : hs = []
  · subst hhs
    by_cases hts : ts = []
    · subst hts
      rfl
    obtain ⟨d, hd, rest, hrest⟩ := head_hexText hts
    have hparse : parseGroups 9 [] (some 0) (hexText ts) = some ([] ++ ts, some 0) :=
      parseGroups_hexText hts (by simpa using hlt) (by simp at hroom; omega)
        (by simpa using hroom.le) (some 0)
    simp only [hexText, List.nil_append]
    rw [hrest] at hparse ⊢
    simp only [parseBody, hparse]
    exact hexpand
  · obtain ⟨d, hd, rest, hrest⟩ := head_hexText hhs
    have hparse : parseGroups 9 [] none (hexText hs ++ ':' :: ':' :: hexText ts) =
        some ([] ++ hs ++ ts, some (([] : List Nat).length + hs.length)) :=
      parseGroups_hexText_ellipsis hhs hlt (by omega) (by simpa using hroom.le)
    rw [hrest] at hparse ⊢
    rw [List.cons_append] at hparse ⊢
    rw [parseBody_digit hd, hparse]
    simpa using hexpand

def plainChar (c : Char) : Bool := c ≠ '.' && c ≠ ':' && c ≠ '%'

theorem plainChar_hex {n : Nat} (h : c ∈ Nat.toDigits 16 n) : plainChar c = true := by
  obtain ⟨d, hd, rfl⟩ := exists_digit_of_mem_toDigits h
  have hall : ∀ d < 16, plainChar (Nat.digitChar d) = true := by decide
  exact hall d hd

theorem plainChar_decimal {n : Nat} (h : c ∈ Nat.toDigits 10 n) : plainChar c = true := by
  have hdigit := isDigit_of_mem_decimal h
  rw [plainChar, Bool.and_eq_true, Bool.and_eq_true]
  refine ⟨⟨?_, ?_⟩, ?_⟩ <;>
  · rw [decide_eq_true_eq]
    rintro rfl
    cases hdigit

theorem percent_not_mem_hexText (gs : List Nat) : '%' ∉ hexText gs := by
  induction gs with
  | nil => exact List.not_mem_nil
  | cons g gs ih =>
    have hfirst : '%' ∉ Nat.toDigits 16 g := fun h => absurd (plainChar_hex h) (by decide)
    by_cases hgs : gs = []
    · subst hgs
      exact hfirst
    rw [hexText_cons hgs, List.mem_append, List.mem_cons]
    rintro (h | h | h)
    · exact hfirst h
    · exact absurd h (by decide)
    · exact ih h

/-- The first of the characters by which `ParseAddr` tells the families apart. -/
theorem find_family {field : List Char} (hfield : ∀ x ∈ field, plainChar x = true)
    (hc : plainChar c = false) (rest : List Char) :
    (field ++ c :: rest).find? (fun c => c = '.' || c = ':' || c = '%') = some c := by
  have hnone : field.find? (fun c => c = '.' || c = ':' || c = '%') = none := by
    refine List.find?_eq_none.mpr fun x hx => ?_
    have := hfield x hx
    simp only [plainChar, Bool.and_eq_true, decide_eq_true_eq] at this
    simp [this]
  rw [List.find?_append, hnone, Option.none_or, List.find?_cons_of_pos]
  simp only [plainChar, Bool.and_eq_false_iff, decide_eq_false_iff_not, not_not] at hc
  rcases hc with (rfl | rfl) | rfl <;> rfl

theorem find_family_hexText (gs : List Nat) (rest : List Char) :
    (hexText gs ++ ':' :: rest).find? (fun c => c = '.' || c = ':' || c = '%') = some ':' := by
  cases gs with
  | nil => exact find_family (fun x hx => absurd hx List.not_mem_nil) (by decide) rest
  | cons g gs =>
    by_cases hgs : gs = []
    · subst hgs
      exact find_family (fun x hx => plainChar_hex hx) (by decide) rest
    · rw [hexText_cons hgs, List.append_assoc]
      exact find_family (fun x hx => plainChar_hex hx) (by decide) _

/-- IPv4 text is read back. -/
theorem parse_v4 (x : BitVec 32) : Addr.parse (v4String x) = some (.v4 x) := by
  have hfind : (v4String x).toList.find? (fun c => c = '.' || c = ':' || c = '%') = some '.' := by
    rw [v4String_toList]
    exact find_family (fun x hx => plainChar_decimal hx) (by decide) _
  unfold Addr.parse
  simp only [hfind, parseIPv4_v4String, Option.map_some]

def v6Body (x : BitVec 128) : List Char :=
  if (Addr.v6 x "").is4In6 then "::ffff:".toList ++ (v4String (x.setWidth 32)).toList
  else (v6String x).toList

theorem toString_v6 (x : BitVec 128) (zone : String) : (Addr.v6 x zone).toString.toList =
    v6Body x ++ if zone = "" then [] else '%' :: zone.toList := by
  have hmapped : (Addr.v6 x zone).is4In6 = (Addr.v6 x "").is4In6 := rfl
  simp only [Addr.toString, v6Body, hmapped]
  split <;> split <;> simp [String.toList_append]

theorem head_v4String (x : BitVec 32) :
    ∃ c rest, (v4String x).toList = c :: rest ∧ c ≠ ':' := by
  obtain ⟨c, rest, hc⟩ :=
    List.exists_cons_of_ne_nil (Nat.toDigits_ne_nil (b := 10) (n := octet x 0))
  have hplain := plainChar_decimal (hc ▸ List.mem_cons_self)
  rw [v4String_toList, hc]
  exact ⟨c, _, rfl, fun heq => by rw [heq] at hplain; cases hplain⟩

theorem takeHex_v4String (x : BitVec 32) :
    ∃ g rest, takeHex (v4String x).toList = some (g, '.' :: rest) := by
  have hall : ∀ n ∈ List.range 256,
      (Nat.toDigits 10 n).all (fun c => (hexValue c).isSome) = true ∧
      (Nat.toDigits 10 n).length ≤ 4 ∧ ((Nat.toDigits 10 n).foldlM
        (fun acc c => (hexValue c).map (acc * 16 + ·)) 0).isSome = true := by
    decide +kernel
  obtain ⟨hhex, hlength, hvalue⟩ :=
    hall (octet x 0) (List.mem_range.mpr (Nat.mod_lt _ (by decide)))
  obtain ⟨g, hg⟩ := Option.isSome_iff_exists.mp hvalue
  rw [v4String_toList]
  exact ⟨g, _, takeHex_field Nat.toDigits_ne_nil (List.all_eq_true.mp hhex) hlength hg
    (by simp; decide)⟩

/-- The text of a mapped address ends in dotted form. -/
theorem parseBody_mapped (x : BitVec 128) (h : (Addr.v6 x "").is4In6 = true) :
    parseBody ("::ffff:".toList ++ (v4String (x.setWidth 32)).toList) = some (groups x) := by
  have hvalue : x.toNat / 2 ^ 32 = 0xffff := by simpa [Addr.is4In6] using h
  set low : BitVec 32 := x.setWidth 32 with hlow
  have hdotted : parseGroups 8 [0xffff] (some 0) (v4String low).toList =
      some ([0xffff, low.toNat / 2 ^ 16, low.toNat % 2 ^ 16], some 0) := by
    obtain ⟨g, rest, htake⟩ := takeHex_v4String low
    rw [parseGroups_dotted (by decide) htake (by decide), parseIPv4_v4String]
    rfl
  have hfirst : parseGroups 9 [] (some 0) ("ffff:".toList ++ (v4String low).toList) =
      parseGroups 8 [0xffff] (some 0) (v4String low).toList :=
    parseGroups_colon (by decide) (takeHex_append (n := 0xffff) (by decide) (by simp; decide))
      (head_v4String low)
  have hbody : parseBody ("::ffff:".toList ++ (v4String low).toList) =
      (parseGroups 9 [] (some 0) ("ffff:".toList ++ (v4String low).toList)).bind expandGroups := rfl
  rw [hbody, hfirst, hdotted, Option.bind_some]
  have hlowNat : low.toNat = x.toNat % 2 ^ 32 := by simp [hlow]
  have hgroups : groups x = [0, 0, 0, 0, 0, 0xffff, low.toNat / 2 ^ 16, low.toNat % 2 ^ 16] := by
    have hx := x.isLt
    simp only [groups, List.range_succ, List.range_zero, List.nil_append, List.cons_append,
      List.map_cons, List.map_nil, hlowNat]
    simp only [List.cons.injEq, and_true]
    omega
  rw [hgroups]
  rfl

/-- IPv6 text is read back, its zone included. -/
theorem parse_v6 (x : BitVec 128) (zone : String) :
    Addr.parse (Addr.v6 x zone).toString = some (.v6 x zone) := by
  have hread : ∀ body : List Char, v6Body x = body → '%' ∉ body →
      parseBody body = some (groups x) →
      (∀ rest, (body ++ rest).find? (fun c => c = '.' || c = ':' || c = '%') = some ':') →
      Addr.parse (Addr.v6 x zone).toString = some (.v6 x zone) := by
    intro body hbody hpercent hparse hfind
    unfold Addr.parse
    rw [toString_v6, hbody]
    simp only [hfind, parseIPv6_eq hpercent, hparse, Option.map_some, ofGroups_groups]
  by_cases hmapped : (Addr.v6 x "").is4In6 = true
  · refine hread _ (if_pos hmapped) ?_ (parseBody_mapped x hmapped) fun rest => rfl
    rw [List.mem_append, v4String_toList]
    have hplain : ∀ n, '%' ∉ Nat.toDigits 10 n := fun n h =>
      absurd (plainChar_decimal h) (by decide)
    simp [hplain]
  · rcases v6String_toList x with htext | ⟨hs, ts, htext, hroom, hgroups⟩
    · refine hread _ ((if_neg hmapped).trans htext) (percent_not_mem_hexText _)
        (parseBody_hexText (groups_length x) (groups_lt x)) fun rest => ?_
      obtain ⟨g, gs, hgs⟩ := List.exists_cons_of_ne_nil
        (List.ne_nil_of_length_eq_add_one (groups_length x))
      have hmore : gs ≠ [] := by
        rintro rfl
        have := groups_length x
        rw [hgs] at this
        cases this
      rw [hgs, hexText_cons hmore, List.append_assoc]
      exact find_family (fun x hx => plainChar_hex hx) (by decide) _
    · refine hread _ ((if_neg hmapped).trans htext) ?_ ?_ fun rest => ?_
      · simp [percent_not_mem_hexText]
      · rw [hgroups]
        refine parseBody_ellipsis hroom fun g hg => groups_lt x g ?_
        rw [hgroups, List.append_assoc]
        rcases List.mem_append.mp hg with hg | hg
        · exact List.mem_append_left _ hg
        · exact List.mem_append_right _ (List.mem_append_right _ hg)
      · rw [List.append_assoc]
        exact find_family_hexText hs _

theorem Addr.parse_toString {a : Addr} (h : a.isValid = true) : Addr.parse a.toString = some a := by
  cases a with
  | zero => cases h
  | v4 x => exact parse_v4 x
  | v6 x zone => exact parse_v6 x zone

end

-- === Addresses and their texts ===

section

variable {a : Addr}

theorem toString_ne_empty (h : a.isValid = true) : a.toString ≠ "" := by
  intro heq
  have hparse := Addr.parse_toString h
  rw [heq] at hparse
  cases hparse

theorem eq_zero_of_not_valid (h : a.isValid = false) : a = .zero := by
  cases a with
  | zero => rfl
  | _ => cases h

theorem isValid_withoutZone : a.withoutZone.isValid = a.isValid := by
  cases a <;> rfl

theorem is4In6_withoutZone : a.withoutZone.is4In6 = a.is4In6 := by
  cases a <;> rfl

theorem is4_withoutZone : a.withoutZone.is4 = a.is4 := by
  cases a <;> rfl

theorem unmap_of_not_mapped (h : a.is4In6 = false) : a.unmap = a := by
  cases a with
  | v6 bits zone => exact if_neg (by rw [h]; decide)
  | _ => rfl

theorem withoutZone_eq_iff : a.withoutZone = a ↔ a.zone = "" := by
  cases a with
  | v6 bits zone => simp [Addr.withoutZone, Addr.zone, eq_comm]
  | _ => simp [Addr.withoutZone, Addr.zone]

/-- The text of a valid address determines it. -/
theorem toString_inj {b : Addr} (ha : a.isValid = true) (hb : b.isValid = true)
    (h : a.toString = b.toString) : a = b := by
  have hparse := Addr.parse_toString ha
  rw [h, Addr.parse_toString hb] at hparse
  exact (Option.some.inj hparse).symm

theorem is4_iff_bitLen {b : Addr} (ha : a.isValid = true) (h : a.bitLen = b.bitLen) :
    a.is4 = b.is4 := by
  cases a <;> cases b <;> simp_all [Addr.bitLen, Addr.is4, Addr.isValid]

end

end Kikimora.Net

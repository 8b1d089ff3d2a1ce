import Arvik.Foundation.IpAddr

/-!
# Reading IP addresses

The parser of the standard library: a version 4 address is four decimal numbers of at most three
digits, without leading zeros; a version 6 address is up to eight hexadecimal groups of at most four
digits, in which `::` stands for at least one zero group and a version 4 address may take the place
of the last two groups. Only a text that is read to its end is an address.

The canonical text of an address is read back as the address (`fromStr_toText`), and so addresses
with one text are one address.

Each reader is a function from a text to a value and the rest of the text, and has two lemmas: what
it makes of the canonical text of such a value with anything behind it, and that it refuses a text
that does not start as it has to. The refusals are needed as much as the successes. The parser tries
a version 4 address at every group, and the canonical text of a group must not be taken for the
start of one; the condition is that the text goes on with something that `Stops` a number. For the
elided run only its being a run of zeros is used, never that it is the longest
(`isZeroRun_longestZeros`).
-/

namespace IpAddr

/-! ### Numbers -/

/-- The value of a digit. -/
def toDigit (radix : ℕ) (c : Char) : Option ℕ :=
  let value :=
    if '0' ≤ c ∧ c ≤ '9' then c.toNat - 48
    else if 'a' ≤ c ∧ c ≤ 'z' then c.toNat - 87
    else if 'A' ≤ c ∧ c ≤ 'Z' then c.toNat - 55
    else radix
  if value < radix then some value else none

/-- The number that digits stand for. -/
def ofDigits (radix : ℕ) (digits : Str) : ℕ :=
  digits.foldl (fun result c ↦ result * radix + (toDigit radix c).getD 0) 0

/-- The number in front of a text, and what is behind it. -/
def readNumber (radix maxDigits : ℕ) (allowZeroPrefix : Bool) (bound : ℕ) (s : Str) :
    Option (ℕ × Str) :=
  let digits := s.takeWhile fun c ↦ (toDigit radix c).isSome
  if digits = [] ∨ maxDigits < digits.length then none
  else if !allowZeroPrefix && digits.head? = some '0' && 1 < digits.length then none
  else if ofDigits radix digits < bound then
    some (ofDigits radix digits, s.dropWhile fun c ↦ (toDigit radix c).isSome)
  else none

/-- What is read behind a separator, which is there except in front of the first part. -/
def readSeparator {α : Type} (sep : Char) (index : ℕ) (inner : Str → Option (α × Str)) (s : Str) :
    Option (α × Str) :=
  if index = 0 then inner s
  else match s with
    | [] => none
    | c :: s => if c = sep then inner s else none

/-! ### Addresses -/

/-- The parts of a version 4 address. -/
def readOctet (index : ℕ) (s : Str) : Option (UInt8 × Str) :=
  (readSeparator '.' index (readNumber 10 3 false 256) s).map fun p ↦ (UInt8.ofNat p.1, p.2)

/-- The version 4 address in front of a text. -/
def readIpv4Addr (s : Str) : Option ((UInt8 × UInt8 × UInt8 × UInt8) × Str) := do
  let (a, s) ← readOctet 0 s
  let (b, s) ← readOctet 1 s
  let (c, s) ← readOctet 2 s
  let (d, s) ← readOctet 3 s
  return ((a, b, c, d), s)

/-- Two octets as a group. -/
def group (hi lo : UInt8) : UInt16 :=
  UInt16.ofNat (hi.toNat * 256 + lo.toNat)

/-- The groups in front of a text, with room for `left` of them behind the first `index`; whether a
version 4 address was read for the last two; and what is behind them. -/
def readGroups : ℕ → ℕ → Str → List UInt16 × Bool × Str
  | 0, _, s => ([], false, s)
  | left + 1, index, s =>
    -- a version 4 address takes the room of two groups
    match if 0 < left then readSeparator ':' index readIpv4Addr s else none with
    | some ((a, b, c, d), s) => ([group a b, group c d], true, s)
    | none =>
      match readSeparator ':' index (readNumber 16 4 true (2 ^ 16)) s with
      | some (number, s) =>
        let (groups, ipv4, s) := readGroups left (index + 1) s
        (UInt16.ofNat number :: groups, ipv4, s)
      | none => ([], false, s)

/-- The address of eight groups. -/
def ofGroups (groups : List UInt16) : IpAddr :=
  v6 (Vector.ofFn fun i ↦ groups.getD i 0)

/-- The version 6 address in front of a text. -/
def readIpv6Addr (s : Str) : Option (IpAddr × Str) :=
  let (head, headIpv4, s) := readGroups 8 0 s
  if head.length = 8 then some (ofGroups head, s)
  -- a version 4 address is not allowed before `::`
  else if headIpv4 then none
  else match s with
    | ':' :: ':' :: s =>
      let (tail, _, s) := readGroups (8 - (head.length + 1)) 0 s
      some (ofGroups (head ++ List.replicate (8 - tail.length - head.length) 0 ++ tail), s)
    | _ => none

/-- The address in front of a text. -/
def readIpAddr (s : Str) : Option (IpAddr × Str) :=
  ((readIpv4Addr s).map fun ((a, b, c, d), s) ↦ (v4 a b c d, s)).or (readIpv6Addr s)

/-- The address a text stands for. -/
def fromStr (s : Str) : Option IpAddr :=
  match readIpAddr s with
  | some (ip, []) => some ip
  | _ => none

/-! ### Reading numbers back -/

theorem toDigit_digitChar {radix : ℕ} (hradix : radix = 10 ∨ radix = 16) {d : ℕ} (h : d < radix) :
    toDigit radix (Nat.digitChar d) = some d := by
  have hdecimal : ∀ d : Fin 10, toDigit 10 (Nat.digitChar d.1) = some d.1 := by decide
  have hhexadecimal : ∀ d : Fin 16, toDigit 16 (Nat.digitChar d.1) = some d.1 := by decide
  rcases hradix with rfl | rfl
  · exact hdecimal ⟨d, h⟩
  · exact hhexadecimal ⟨d, h⟩

theorem isSome_toDigit_of_mem_toDigits {radix : ℕ} (hradix : radix = 10 ∨ radix = 16) {n : ℕ}
    {c : Char} (hc : c ∈ Nat.toDigits radix n) : (toDigit radix c).isSome := by
  obtain ⟨d, hd, rfl⟩ := Text.exists_digitChar_of_mem_toDigits (by omega) hc
  rw [toDigit_digitChar hradix hd]
  rfl

theorem ofDigits_toDigits {radix : ℕ} (hradix : radix = 10 ∨ radix = 16) (n : ℕ) :
    ofDigits radix (Nat.toDigits radix n) = n := by
  induction n using Nat.strong_induction_on with
  | h n ih =>
    have hone : 1 < radix := by omega
    rcases Nat.lt_or_ge n radix with h | h
    · rw [Nat.toDigits_of_lt_base h]
      simp [ofDigits, toDigit_digitChar hradix h]
    · have hmod : n % radix < radix := Nat.mod_lt _ (by omega)
      have hdiv := ih (n / radix) (Nat.div_lt_self (by omega) hone)
      rw [ofDigits] at hdiv
      rw [Nat.toDigits_of_base_le hone h, ofDigits, List.foldl_append, hdiv]
      simp only [List.foldl_cons, List.foldl_nil, toDigit_digitChar hradix hmod, Option.getD_some]
      exact Nat.div_add_mod' n radix

/-- Numbers are written without leading zeros. -/
theorem head?_toDigits {radix : ℕ} (hone : 1 < radix) {n : ℕ} (hn : 0 < n) :
    (Nat.toDigits radix n).head? ≠ some '0' := by
  induction n using Nat.strong_induction_on with
  | h n ih =>
    rcases Nat.lt_or_ge n radix with h | h
    · rw [Nat.toDigits_of_lt_base h, List.head?_cons, ne_eq, Option.some.injEq,
        Nat.digitChar_eq_zero]
      omega
    · rw [Nat.toDigits_of_base_le hone h,
        List.head?_append_of_ne_nil _ (Nat.toDigits_ne_nil)]
      exact ih _ (Nat.div_lt_self hn hone) (Nat.div_pos h (by omega))

/-- A text with no digit in front. -/
def NoDigit (radix : ℕ) (rest : Str) : Prop :=
  ∀ c ∈ rest.head?, toDigit radix c = none

theorem takeWhile_eq_nil_of_noDigit {radix : ℕ} {rest : Str} (h : NoDigit radix rest) :
    rest.takeWhile (fun c ↦ (toDigit radix c).isSome) = [] := by
  cases rest with
  | nil => rfl
  | cons c rest => simp [h c rfl]

theorem readNumber_of_noDigit {radix maxDigits bound : ℕ} {allowZeroPrefix : Bool} {rest : Str}
    (h : NoDigit radix rest) : readNumber radix maxDigits allowZeroPrefix bound rest = none := by
  rw [readNumber, takeWhile_eq_nil_of_noDigit h]
  exact if_pos (.inl rfl)

/-- A written number is read back, up to a text that does not start with a digit. -/
theorem readNumber_toDigits {radix : ℕ} (hradix : radix = 10 ∨ radix = 16) {maxDigits bound : ℕ}
    {allowZeroPrefix : Bool} {n : ℕ} (hbound : n < bound) (hdigits : n < radix ^ maxDigits)
    (hmax : 0 < maxDigits) {rest : Str} (hrest : NoDigit radix rest) :
    readNumber radix maxDigits allowZeroPrefix bound (Nat.toDigits radix n ++ rest) =
      some (n, rest) := by
  have hone : 1 < radix := by omega
  have htake : (Nat.toDigits radix n ++ rest).takeWhile (fun c ↦ (toDigit radix c).isSome) =
      Nat.toDigits radix n := by
    rw [List.takeWhile_append_of_pos fun c hc ↦ isSome_toDigit_of_mem_toDigits hradix hc,
      takeWhile_eq_nil_of_noDigit hrest, List.append_nil]
  have hdrop : (Nat.toDigits radix n ++ rest).dropWhile (fun c ↦ (toDigit radix c).isSome) =
      rest := by
    have h := List.takeWhile_append_dropWhile
      (p := fun c ↦ (toDigit radix c).isSome) (l := Nat.toDigits radix n ++ rest)
    rw [htake] at h
    exact List.append_cancel_left h
  have hlength : ¬(Nat.toDigits radix n = [] ∨ maxDigits < (Nat.toDigits radix n).length) := by
    rintro (h | h)
    · exact Nat.toDigits_ne_nil h
    · exact absurd ((Nat.length_toDigits_le_iff hone hmax).2 hdigits) (by omega)
  have hzero : ¬(!allowZeroPrefix && (Nat.toDigits radix n).head? = some '0' &&
      1 < (Nat.toDigits radix n).length) = true := by
    rcases Nat.eq_zero_or_pos n with rfl | hn
    · simp [Nat.toDigits_zero]
    · simp [head?_toDigits hone hn]
  rw [readNumber]
  simp only [htake, hdrop, ofDigits_toDigits hradix]
  rw [if_neg hlength, if_neg hzero, if_pos hbound]

/-! ### Reading version 4 addresses back -/

theorem noDigit_cons {radix : ℕ} {c : Char} (h : toDigit radix c = none) (rest : Str) :
    NoDigit radix (c :: rest) := by
  rintro c' hc'
  rwa [← Option.some.inj hc']

@[simp]
theorem readSeparator_zero {α : Type} (sep : Char) (inner : Str → Option (α × Str)) (s : Str) :
    readSeparator sep 0 inner s = inner s :=
  rfl

@[simp]
theorem readSeparator_succ {α : Type} (sep : Char) (index : ℕ) (inner : Str → Option (α × Str))
    (s : Str) : readSeparator sep (index + 1) inner (sep :: s) = inner s := by
  simp [readSeparator]

theorem noDigit_nil (radix : ℕ) : NoDigit radix [] := by
  rintro c ⟨⟩

/-- An octet is read back behind its separator. -/
theorem readNumber_octet (octet : UInt8) {rest : Str} (hrest : NoDigit 10 rest) :
    (readNumber 10 3 false 256 (Nat.toDigits 10 octet.toNat ++ rest)).map
        (fun p ↦ (UInt8.ofNat p.1, p.2)) = some (octet, rest) := by
  have hbound := octet.toNat_lt
  rw [readNumber_toDigits (.inl rfl) hbound (by omega) (by decide) hrest]
  simp

theorem readIpv4Addr_dotted (a b c d : UInt8) {rest : Str} (hrest : NoDigit 10 rest) :
    readIpv4Addr (dotted a b c d ++ rest) = some ((a, b, c, d), rest) := by
  have hdot : ∀ rest : Str, NoDigit 10 ('.' :: rest) := noDigit_cons (by decide)
  have hfirst : ∀ rest : Str, readOctet 0 (Nat.toDigits 10 a.toNat ++ '.' :: rest) =
      some (a, '.' :: rest) :=
    fun rest ↦ readNumber_octet a (hdot rest)
  have hnext : ∀ (index : ℕ) (octet : UInt8) {rest : Str}, NoDigit 10 rest →
      readOctet (index + 1) ('.' :: (Nat.toDigits 10 octet.toNat ++ rest)) =
        some (octet, rest) := by
    intro index octet rest h
    rw [readOctet, readSeparator_succ]
    exact readNumber_octet octet h
  simp only [dotted, List.append_assoc, List.cons_append]
  simp [readIpv4Addr, hfirst, hnext 0 b (hdot _), hnext 1 c (hdot _), hnext 2 d hrest]

/-- Without dots there is no version 4 address. -/
theorem readIpv4Addr_eq_none {s : Str} (h : '.' ∉ s) : readIpv4Addr s = none := by
  rcases hoctet : readOctet 0 s with - | ⟨octet, rest⟩
  · simp [readIpv4Addr, hoctet]
  · have hsuffix : rest <:+ s := by
      obtain ⟨p, hp, hrest⟩ := Option.map_eq_some_iff.1 hoctet
      rw [readSeparator_zero, readNumber] at hp
      split at hp
      · cases hp
      · split at hp
        · cases hp
        · split at hp
          · cases hp
            cases hrest
            exact List.dropWhile_suffix _
          · cases hp
    have hnext : readOctet 1 rest = none := by
      cases rest with
      | nil => rfl
      | cons c rest =>
        have hc : c ≠ '.' := fun hc ↦ h (hsuffix.subset (hc ▸ List.mem_cons_self))
        simp [readOctet, readSeparator, hc]
    simp [readIpv4Addr, hoctet, hnext]

/-! ### Reading version 6 addresses back -/

/-- Groups in hexadecimal as they are read from the `index`-th on: with a colon in front of each but
the very first. -/
def groupsFrom (index : ℕ) (groups : List UInt16) : Str :=
  if index = 0 then hexGroups groups
  else groups.flatMap fun group ↦ ':' :: Nat.toDigits 16 group.toNat

theorem groupsFrom_succ_cons (index : ℕ) (group : UInt16) (groups : List UInt16) :
    groupsFrom (index + 1) (group :: groups) =
      ':' :: (Nat.toDigits 16 group.toNat ++ groupsFrom (index + 2) groups) :=
  rfl

theorem groupsFrom_zero_cons (group : UInt16) (groups : List UInt16) :
    groupsFrom 0 (group :: groups) = Nat.toDigits 16 group.toNat ++ groupsFrom 1 groups := by
  induction groups generalizing group with
  | nil => simp [groupsFrom, hexGroups]
  | cons next groups ih =>
    have htail := ih next
    simp only [groupsFrom, if_pos, hexGroups, if_neg Nat.one_ne_zero] at htail ⊢
    rw [List.map_cons] at htail
    rw [List.map_cons, List.map_cons, List.intercalate_cons_cons, htail]
    simp

/-- Where the groups of a text stop: at its end, or in front of `::`. -/
def Stops (rest : Str) : Prop :=
  rest = [] ∨ ∃ rest', rest = ':' :: ':' :: rest'

theorem Stops.noDigit {rest : Str} (h : Stops rest) : NoDigit 16 rest := by
  rcases h with rfl | ⟨rest', rfl⟩
  · exact noDigit_nil 16
  · exact noDigit_cons (by decide) _

/-- Behind the last group there is no other. -/
theorem Stops.readSeparator_eq_none {rest : Str} (h : Stops rest) (index : ℕ) :
    readSeparator ':' index (readNumber 16 4 true (2 ^ 16)) rest = none := by
  cases index with
  | zero => exact readNumber_of_noDigit h.noDigit
  | succ index =>
    rcases h with rfl | ⟨rest', rfl⟩
    · rfl
    · rw [readSeparator_succ]
      exact readNumber_of_noDigit (noDigit_cons (by decide) _)

theorem readSeparator_readIpv4Addr_eq_none {s : Str} (h : '.' ∉ s) (index : ℕ) :
    readSeparator ':' index readIpv4Addr s = none := by
  cases index with
  | zero => exact readIpv4Addr_eq_none h
  | succ index =>
    cases s with
    | nil => rfl
    | cons c s =>
      simp only [readSeparator, if_neg (Nat.succ_ne_zero index)]
      split_ifs with hc
      · exact readIpv4Addr_eq_none (List.not_mem_of_not_mem_cons h)
      · rfl

theorem dot_not_mem_toDigits (n : ℕ) : '.' ∉ Nat.toDigits 16 n := by
  intro h
  have hdigit := isSome_toDigit_of_mem_toDigits (.inr rfl) h
  exact absurd hdigit (by decide)

theorem dot_not_mem_groupsFrom (index : ℕ) (groups : List UInt16) :
    '.' ∉ groupsFrom index groups := by
  cases index with
  | succ index =>
    rw [groupsFrom, if_neg (Nat.succ_ne_zero index), List.mem_flatMap]
    rintro ⟨group, -, h⟩
    rcases List.mem_cons.1 h with h | h
    · exact absurd h (by decide)
    · exact dot_not_mem_toDigits _ h
  | zero =>
    intro h
    rw [groupsFrom, if_pos rfl, hexGroups] at h
    rcases Text.mem_intercalate h with h | ⟨digits, hdigits, h⟩
    · exact absurd h (by decide)
    · obtain ⟨group, -, rfl⟩ := List.mem_map.1 hdigits
      exact dot_not_mem_toDigits _ h

/-- Written groups are read back, as far as there is room for them. -/
theorem readGroups_groupsFrom (groups : List UInt16) (left index : ℕ)
    (hleft : groups.length ≤ left) {rest : Str} (hrest : Stops rest) (hdot : '.' ∉ rest) :
    readGroups left index (groupsFrom index groups ++ rest) = (groups, false, rest) := by
  induction groups generalizing left index with
  | nil =>
    have hnil : groupsFrom index [] = [] := by
      rw [groupsFrom]
      split_ifs <;> rfl
    rw [hnil, List.nil_append]
    cases left with
    | zero => rfl
    | succ left =>
      rw [readGroups, readSeparator_readIpv4Addr_eq_none hdot, ite_self]
      dsimp only
      rw [hrest.readSeparator_eq_none]
  | cons group groups ih =>
    obtain ⟨left, rfl⟩ : ∃ left', left = left' + 1 :=
      ⟨left - 1, by rw [List.length_cons] at hleft; omega⟩
    have hipv4 : '.' ∉ groupsFrom index (group :: groups) ++ rest := by
      rw [List.mem_append, not_or]
      exact ⟨dot_not_mem_groupsFrom index _, hdot⟩
    -- the colon in front of the next group ends this one
    have hnext : NoDigit 16 (groupsFrom (index + 1) groups ++ rest) := by
      cases groups with
      | nil => exact hrest.noDigit
      | cons group groups =>
        rw [groupsFrom_succ_cons, List.cons_append]
        exact noDigit_cons (by decide) _
    have hgroup : readSeparator ':' index (readNumber 16 4 true (2 ^ 16))
          (groupsFrom index (group :: groups) ++ rest) =
        some (group.toNat, groupsFrom (index + 1) groups ++ rest) := by
      have hnumber : readNumber 16 4 true (2 ^ 16)
            (Nat.toDigits 16 group.toNat ++ (groupsFrom (index + 1) groups ++ rest)) =
          some (group.toNat, groupsFrom (index + 1) groups ++ rest) :=
        readNumber_toDigits (.inr rfl) group.toNat_lt group.toNat_lt (by decide) hnext
      cases index with
      | zero =>
        rw [groupsFrom_zero_cons, List.append_assoc, readSeparator_zero]
        exact hnumber
      | succ index =>
        rw [groupsFrom_succ_cons, List.cons_append, readSeparator_succ, List.append_assoc]
        exact hnumber
    rw [readGroups, readSeparator_readIpv4Addr_eq_none hipv4, ite_self]
    dsimp only
    rw [hgroup]
    dsimp only
    rw [ih left (index + 1) (Nat.le_of_succ_le_succ hleft)]
    simp

/-! ### Runs of zero groups -/

/-- The groups of a run are zero. -/
def Span.IsZeroRun (run : Span) (groups : List UInt16) : Prop :=
  ∀ j, run.start ≤ j → j < run.start + run.len → groups[j]? = some 0

theorem Span.IsZeroRun.append {run : Span} {groups : List UInt16} (h : run.IsZeroRun groups)
    (groups' : List UInt16) : run.IsZeroRun (groups ++ groups') :=
  fun j hstart hend ↦ (List.getElem?_append_left
    (List.getElem?_eq_some_iff.1 (h j hstart hend)).1).trans (h j hstart hend)

theorem Span.isZeroRun_empty (groups : List UInt16) : ({} : Span).IsZeroRun groups :=
  fun _ _ hend ↦ absurd hend (Nat.not_lt_zero _)

/-- The search finds a run of zero groups. -/
theorem isZeroRun_longestZeros (groups before : List UInt16) (longest current : Span)
    (hlongest : longest.IsZeroRun before) (hcurrent : current.IsZeroRun before)
    (hends : current.len = 0 ∨ current.start + current.len = before.length) :
    (longestZeros longest current before.length groups).IsZeroRun (before ++ groups) := by
  induction groups generalizing before longest current with
  | nil => simpa [longestZeros] using hlongest
  | cons group groups ih =>
    have hstep := fun longest current ↦ ih (before ++ [group]) longest current
    simp only [List.length_append, List.length_singleton, List.append_assoc,
      List.singleton_append] at hstep
    rw [longestZeros]
    by_cases hzero : group = 0
    · -- the run in progress grows by the group
      obtain ⟨grown, hdef⟩ : ∃ grown : Span, grown =
          ⟨if current.len = 0 then before.length else current.start, current.len + 1⟩ := ⟨_, rfl⟩
      have hgrown : grown.IsZeroRun (before ++ [group]) := by
        intro j hstart hend
        rw [hdef] at hstart hend
        dsimp only at hstart hend
        rcases Nat.lt_or_ge j before.length with hj | hj
        · have hlen : current.len ≠ 0 := by
            intro hlen
            rw [if_pos hlen] at hstart
            omega
          rw [if_neg hlen] at hstart hend
          exact hcurrent.append [group] j hstart (by omega)
        · have hj' : j = before.length := by
            split_ifs at hend <;> omega
          rw [hj', List.getElem?_concat_length, hzero]
      rw [if_pos hzero, ← hdef]
      refine hstep _ _ ?_ hgrown (.inr ?_)
      · split_ifs
        · exact hgrown
        · exact hlongest.append [group]
      · rw [hdef]
        dsimp only
        split_ifs <;> omega
    · -- Another group ends the run in progress.
      rw [if_neg hzero]
      exact hstep _ _ (hlongest.append [group]) (Span.isZeroRun_empty _) (.inl rfl)

/-- Groups with the zeros of a run written out are the groups. -/
theorem Span.IsZeroRun.fill {run : Span} {groups : List UInt16} (h : run.IsZeroRun groups)
    (hlen : 0 < run.len) :
    run.start + run.len ≤ groups.length ∧
      groups.take run.start ++ (List.replicate run.len 0 ++ groups.drop (run.start + run.len)) =
        groups := by
  have hlast := (List.getElem?_eq_some_iff.1 (h (run.start + run.len - 1) (by omega)
    (by omega))).1
  have hzeros : (groups.drop run.start).take run.len = List.replicate run.len 0 := by
    refine List.ext_getElem? fun j ↦ ?_
    rw [List.getElem?_take, List.getElem?_drop, List.getElem?_replicate]
    split_ifs with hj
    · exact h (run.start + j) (by omega) (by omega)
    · rfl
  refine ⟨by omega, ?_⟩
  rw [← hzeros, ← List.drop_drop, List.take_append_drop, List.take_append_drop]

theorem ofGroups_toList (groups : Vector UInt16 8) : ofGroups groups.toList = v6 groups := by
  rw [ofGroups]
  congr 1
  ext i hi
  simp

/-! ### The round trip -/

/-- A text that does not start with a decimal digit has no version 4 address in front. -/
theorem readIpv4Addr_of_noDigit {s : Str} (h : NoDigit 10 s) : readIpv4Addr s = none := by
  have hoctet : readOctet 0 s = none := by
    rw [readOctet, readSeparator_zero, readNumber_of_noDigit h]
    rfl
  simp [readIpv4Addr, hoctet]

theorem fromStr_of_readIpv6Addr {s : Str} {ip : IpAddr} (hipv4 : readIpv4Addr s = none)
    (h : readIpv6Addr s = some (ip, [])) : fromStr s = some ip := by
  rw [fromStr, readIpAddr, hipv4, h]
  rfl

theorem fromStr_dotted (a b c d : UInt8) : fromStr (dotted a b c d) = some (v4 a b c d) := by
  have h := readIpv4Addr_dotted a b c d (noDigit_nil 10)
  rw [List.append_nil] at h
  rw [fromStr, readIpAddr, h]
  rfl

theorem fromStr_hexGroups (groups : Vector UInt16 8) :
    fromStr (hexGroups groups.toList) = some (v6 groups) := by
  have hread := readGroups_groupsFrom groups.toList 8 0 (by simp) (.inl rfl) (by simp)
  rw [List.append_nil, groupsFrom, if_pos rfl] at hread
  refine fromStr_of_readIpv6Addr (readIpv4Addr_eq_none (dot_not_mem_groupsFrom 0 _)) ?_
  rw [readIpv6Addr, hread]
  dsimp only
  rw [if_pos (by simp), ofGroups_toList]

theorem readIpv6Addr_of_elided {head tail : List UInt16} {ipv4 : Bool} {s s' : Str}
    (hlen : head.length < 8) (hhead : readGroups 8 0 s = (head, false, ':' :: ':' :: s'))
    (htail : readGroups (8 - (head.length + 1)) 0 s' = (tail, ipv4, [])) :
    readIpv6Addr s =
      some (ofGroups (head ++ List.replicate (8 - tail.length - head.length) 0 ++ tail), []) := by
  simp only [readIpv6Addr, hhead, htail, if_neg (Nat.ne_of_lt hlen), Bool.false_eq_true, if_false]

/-- An address with the groups of a run left out is read back, the run as zeros. -/
theorem fromStr_elided {groups : Vector UInt16 8} {run : Span}
    (hrun : run.IsZeroRun groups.toList) (hlen : 1 < run.len) :
    fromStr (hexGroups (groups.toList.take run.start) ++ "::".toList ++
        hexGroups (groups.toList.drop (run.start + run.len))) = some (v6 groups) := by
  obtain ⟨hend, hfill⟩ := hrun.fill (by omega)
  rw [Vector.length_toList] at hend
  set head := groups.toList.take run.start with hhead
  set tail := groups.toList.drop (run.start + run.len) with htail
  have hheadLength : head.length = run.start := by
    rw [hhead, List.length_take, Vector.length_toList]
    omega
  have htailLength : tail.length = 8 - (run.start + run.len) := by
    rw [htail, List.length_drop, Vector.length_toList]
  have hdot : '.' ∉ ':' :: ':' :: hexGroups tail := by
    rw [List.mem_cons, List.mem_cons, not_or, not_or]
    exact ⟨by decide, by decide, dot_not_mem_groupsFrom 0 tail⟩
  have hreadHead : readGroups 8 0 (hexGroups head ++ ':' :: ':' :: hexGroups tail) =
      (head, false, ':' :: ':' :: hexGroups tail) :=
    readGroups_groupsFrom head 8 0 (by omega) (.inr ⟨_, rfl⟩) hdot
  have hreadTail : readGroups (8 - (head.length + 1)) 0 (hexGroups tail) = (tail, false, []) := by
    have h := readGroups_groupsFrom tail (8 - (head.length + 1)) 0 (by omega) (.inl rfl) (by simp)
    rwa [List.append_nil] at h
  have hzeros : 8 - tail.length - head.length = run.len := by omega
  rw [List.append_assoc]
  refine fromStr_of_readIpv6Addr (readIpv4Addr_eq_none ?_) ?_
  · rw [List.mem_append, not_or]
    exact ⟨dot_not_mem_groupsFrom 0 head, hdot⟩
  · refine (readIpv6Addr_of_elided (by omega) hreadHead hreadTail).trans ?_
    rw [hzeros, List.append_assoc, hfill, ofGroups_toList]

theorem group_div_mod (word : UInt16) : group (word / 256).toUInt8 word.toUInt8 = word := by
  have hword := word.toNat_lt
  have hvalue : (word / 256).toUInt8.toNat * 256 + word.toUInt8.toNat = word.toNat := by
    simp
    omega
  rw [group, hvalue, UInt16.ofNat_toNat]

/-- An address that embeds a version 4 address is read back. -/
theorem fromStr_mapped (hi lo : UInt16) :
    fromStr ("::ffff:".toList ++
        dotted (hi / 256).toUInt8 hi.toUInt8 (lo / 256).toUInt8 lo.toUInt8) =
      some (ofGroups [0, 0, 0, 0, 0, 0xffff, hi, lo]) := by
  set embedded := dotted (hi / 256).toUInt8 hi.toUInt8 (lo / 256).toUInt8 lo.toUInt8 with hembedded
  have hipv4 := readIpv4Addr_dotted (hi / 256).toUInt8 hi.toUInt8 (lo / 256).toUInt8 lo.toUInt8
    (noDigit_nil 10)
  rw [List.append_nil, ← hembedded] at hipv4
  have hhead : readGroups 8 0 (':' :: ':' :: ("ffff:".toList ++ embedded)) =
      ([], false, ':' :: ':' :: ("ffff:".toList ++ embedded)) := by
    have hstops : Stops (':' :: ':' :: ("ffff:".toList ++ embedded)) := .inr ⟨_, rfl⟩
    rw [readGroups, if_pos (by decide), readSeparator_zero,
      readIpv4Addr_of_noDigit (noDigit_cons (by decide) _)]
    dsimp only
    rw [hstops.readSeparator_eq_none]
  have hfirst : readNumber 16 4 true (2 ^ 16) ("ffff:".toList ++ embedded) =
      some (0xffff, ':' :: embedded) :=
    readNumber_toDigits (n := 0xffff) (.inr rfl) (by decide) (by decide) (by decide)
      (noDigit_cons (by decide) embedded)
  have hword : readIpv4Addr ("ffff:".toList ++ embedded) = none :=
    readIpv4Addr_of_noDigit (noDigit_cons (c := 'f') (by decide) ("fff:".toList ++ embedded))
  have htail : readGroups 7 0 ("ffff:".toList ++ embedded) = ([0xffff, hi, lo], true, []) := by
    rw [readGroups, if_pos (by decide), readSeparator_zero, hword]
    dsimp only
    rw [readSeparator_zero, hfirst]
    dsimp only
    rw [readGroups, if_pos (by decide), readSeparator_succ, hipv4]
    dsimp only
    rw [group_div_mod, group_div_mod]
    rfl
  have hbegin : "::ffff:".toList ++ embedded = ':' :: ':' :: ("ffff:".toList ++ embedded) := rfl
  rw [hbegin]
  refine fromStr_of_readIpv6Addr (readIpv4Addr_of_noDigit (noDigit_cons (by decide) _)) ?_
  have hlen : ([] : List UInt16).length < 8 := by decide
  have hroom : 8 - (([] : List UInt16).length + 1) = 7 := rfl
  rw [readIpv6Addr_of_elided hlen hhead (by rw [hroom]; exact htail)]
  rfl

/-- **The round trip**: the text of an address is read back as the address. Each form of the text is
read by a lemma of its own, and none is taken for another one. -/
theorem fromStr_toText (ip : IpAddr) : fromStr ip.toText = some ip := by
  cases ip with
  | v4 a b c d => exact fromStr_dotted a b c d
  | v6 groups =>
    rw [toText, colons]
    dsimp only
    split_ifs with hmapped hlen
    · have hgroups : groups.toList =
          ([0, 0, 0, 0, 0, 0xffff, groups[6], groups[7]] : List UInt16) := by
        have hlength : 7 < groups.toList.length := by simp
        rw [← List.take_append_drop 6 groups.toList, hmapped,
          List.drop_eq_getElem_cons (by omega), List.drop_eq_getElem_cons (by omega),
          List.drop_of_length_le (by simp)]
        simp
      rw [fromStr_mapped, ← ofGroups_toList groups, hgroups]
      rfl
    · exact fromStr_elided (isZeroRun_longestZeros groups.toList [] {} {}
        (Span.isZeroRun_empty _) (Span.isZeroRun_empty _) (.inl rfl)) hlen
    · exact fromStr_hexGroups groups

/-- Addresses with one text are one address. -/
theorem toText_injective : Function.Injective toText := by
  intro ip ip' h
  have hfrom := congrArg fromStr h
  rw [fromStr_toText, fromStr_toText] at hfrom
  exact Option.some.inj hfrom

example : fromStr "::ffff:10.0.0.9".toList =
    some (v6 #v[0, 0, 0, 0, 0, 0xffff, 0x0a00, 0x0009]) := by decide
example : fromStr "10.0.0.09".toList = none := by decide

end IpAddr

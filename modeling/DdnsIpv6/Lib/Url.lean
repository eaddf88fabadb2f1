import Mathlib.Data.List.DropRight
import Mathlib.Data.List.Flatten
import Mathlib.Tactic.Common

/-!
# The text of a URL

How a client and a server read the text of a URL, on lists of characters: control characters and spaces at the ends are
dropped, and so are tabs and newlines everywhere (`clean`); `#` starts the fragment, which is not sent; the first `?`
starts the query, whose parameters stand between `&`s, each a key and a value around the first `=`; in both, `+` and
percent escapes are decoded (`formDecode`), to bytes.

`location_append`, `query_append` and `get_last` read a URL whose last query parameter has an arbitrary text as its
value; `formDecode_eq_utf8_iff` says which texts are decoded to themselves.
-/

namespace Lib.Url

/-- The bytes of a text. -/
def utf8 (cs : List Char) : List UInt8 := cs.flatMap String.utf8EncodeChar

/-! ## The parts of a URL -/

/-- A control character or a space: dropped at the ends. -/
def isTrimmed (c : Char) : Bool := c.toNat ≤ 0x20

/-- A tab or a newline: dropped everywhere. -/
def isRemoved (c : Char) : Bool := c == '\t' || c == '\n' || c == '\r'

def clean (url : List Char) : List Char :=
  ((url.dropWhile isTrimmed).rdropWhile isTrimmed).filter fun c => !isRemoved c

def withoutFragment (url : List Char) : List Char := (clean url).takeWhile (· != '#')

/-- What stands before the query: scheme, host and path. -/
def location (url : List Char) : List Char := (withoutFragment url).takeWhile (· != '?')

/-- What stands after the first `?`. -/
def query (url : List Char) : List Char := ((withoutFragment url).dropWhile (· != '?')).tail

/-! ## Query parameters -/

def hexValue (c : Char) : Option Nat :=
  if '0' ≤ c ∧ c ≤ '9' then some (c.toNat - '0'.toNat)
  else if 'a' ≤ c ∧ c ≤ 'f' then some (c.toNat - 'a'.toNat + 10)
  else if 'A' ≤ c ∧ c ≤ 'F' then some (c.toNat - 'A'.toNat + 10)
  else none

/-- The byte of the escape `%ab`. -/
def escaped (a b : Char) : Option UInt8 := do
  let hi ← hexValue a
  let lo ← hexValue b
  some (UInt8.ofNat (hi * 16 + lo))

/-- Decode a key or a value. A `%` that starts no escape stands for itself. -/
def formDecode : List Char → List UInt8
  | [] => []
  | '%' :: a :: b :: cs =>
    match escaped a b with
    | some byte => byte :: formDecode cs
    | none => String.utf8EncodeChar '%' ++ formDecode (a :: b :: cs)
  | c :: cs => (if c = '+' then [0x20] else String.utf8EncodeChar c) ++ formDecode cs

/-- The texts between the `&`s. -/
def pieces : List Char → List (List Char)
  | [] => [[]]
  | c :: cs =>
    if c = '&' then [] :: pieces cs
    else match pieces cs with
      | [] => [[c]]
      | p :: ps => (c :: p) :: ps

/-- The key and the value of a piece. -/
def keyValue (piece : List Char) : List UInt8 × List UInt8 :=
  (formDecode (piece.takeWhile (· != '=')), formDecode (piece.dropWhile (· != '=')).tail)

/-- The first parameter with the given key. -/
def get (key : List Char) (q : List Char) : Option (List UInt8) := ((pieces q).map keyValue).lookup (utf8 key)

/-- No `+` and no percent escape. -/
def noEscape : List Char → Bool
  | [] => true
  | '%' :: a :: b :: cs => (escaped a b).isNone && noEscape (a :: b :: cs)
  | c :: cs => c != '+' && noEscape cs

/-! ## Decoding -/

variable {cs k l p q r x : List Char}

@[simp] theorem utf8_cons (c : Char) (cs : List Char) : utf8 (c :: cs) = String.utf8EncodeChar c ++ utf8 cs := rfl

/-- Different texts have different bytes. -/
theorem utf8_inj : utf8 k = utf8 l ↔ k = l := by
  refine ⟨fun h => ?_, congrArg utf8⟩
  have henc : k.utf8Encode = l.utf8Encode := congrArg List.toByteArray h
  have hdec := congrArg ByteArray.utf8Decode? henc
  rw [List.utf8Decode?_utf8Encode, List.utf8Decode?_utf8Encode, Option.some.injEq] at hdec
  exact Array.toList_inj.2 hdec

theorem utf8EncodeChar_length_pos (c : Char) : 0 < (String.utf8EncodeChar c).length := by
  rw [String.length_utf8EncodeChar]
  exact c.utf8Size_pos

/-- Decoding does not make a text longer. -/
theorem formDecode_length_le (cs : List Char) : (formDecode cs).length ≤ (utf8 cs).length := by
  induction cs using formDecode.induct with
  | case1 => exact le_refl _
  | case2 a b cs byte h ih =>
    have ha := utf8EncodeChar_length_pos a
    simp only [formDecode, h, utf8_cons, List.length_append, List.length_cons]
    omega
  | case3 a b cs h ih =>
    simp only [formDecode, h]
    rw [utf8_cons, List.length_append, List.length_append]
    exact Nat.add_le_add_left ih _
  | case4 c cs hne ih =>
    have hc := utf8EncodeChar_length_pos c
    rw [formDecode.eq_3 c cs hne, utf8_cons, List.length_append, List.length_append]
    split
    · rw [List.length_singleton]
      omega
    · exact Nat.add_le_add_left ih _

/-- **Decoding changes exactly the texts with a `+` or a percent escape.** -/
theorem formDecode_eq_utf8_iff (cs : List Char) : formDecode cs = utf8 cs ↔ noEscape cs = true := by
  induction cs using formDecode.induct with
  | case1 => exact iff_of_true rfl rfl
  | case2 a b cs byte h ih =>
    refine iff_of_false ?_ (by simp [noEscape, h])
    intro he
    have hle := formDecode_length_le cs
    have hlen := congrArg List.length he
    have ha := utf8EncodeChar_length_pos a
    have hb := utf8EncodeChar_length_pos b
    simp only [formDecode, h, utf8_cons, List.length_append, List.length_cons] at hlen
    omega
  | case3 a b cs h ih =>
    rw [formDecode, h, utf8_cons, noEscape, h, Option.isNone_none, Bool.true_and]
    exact (List.append_cancel_left_eq _ _ _).to_iff.trans ih
  | case4 c cs hne ih =>
    rw [formDecode.eq_3 c cs hne, utf8_cons, noEscape.eq_3 c cs hne]
    by_cases hc : c = '+'
    · subst hc
      refine iff_of_false ?_ (by simp)
      intro he
      exact absurd (List.cons.inj he).1 (by decide)
    · rw [if_neg hc, bne_iff_ne.2 hc, Bool.true_and]
      exact (List.append_cancel_left_eq _ _ _).to_iff.trans ih

/-- A character that starts no escape is decoded alone. -/
theorem formDecode_cons {c : Char} (h : ∀ a b r, c = '%' → cs = a :: b :: r → escaped a b = none) :
    formDecode (c :: cs) = (if c = '+' then [0x20] else String.utf8EncodeChar c) ++ formDecode cs := by
  by_cases hpair : ∃ a b r, c = '%' ∧ cs = a :: b :: r
  · obtain ⟨a, b, r, rfl, rfl⟩ := hpair
    rw [formDecode, h a b r rfl rfl, if_neg (by decide)]
  · exact formDecode.eq_3 c cs fun a b r hc hcs => hpair ⟨a, b, r, hc, hcs⟩

/-- A `%` starts no escape that `%` belongs to. -/
theorem escaped_percent (a : Char) : escaped '%' a = none ∧ escaped a '%' = none := by
  refine ⟨rfl, ?_⟩
  rw [escaped, show hexValue '%' = none from rfl]
  cases hexValue a <;> rfl

/-- A part of a text that is as long is the text. -/
theorem eq_of_sublist (h : k.Sublist l) (hlen : (utf8 l).length ≤ (utf8 k).length) : k = l := by
  induction h with
  | slnil => rfl
  | cons c h _ =>
    have hle : (utf8 _).length ≤ (utf8 _).length := (h.flatMap String.utf8EncodeChar).length_le
    have hc := utf8EncodeChar_length_pos c
    rw [utf8_cons, List.length_append] at hlen
    omega
  | cons_cons c _ ih =>
    rw [utf8_cons, utf8_cons, List.length_append, List.length_append] at hlen
    rw [ih (by omega)]

/-! ## Parameters -/

/-- Texts are split at each `&`. -/
theorem pieces_append (hp : '&' ∉ p) : pieces (p ++ '&' :: r) = p :: pieces r := by
  induction p with
  | nil => simp only [List.nil_append, pieces, if_pos]
  | cons c cs ih =>
    rw [List.mem_cons, not_or] at hp
    rw [List.cons_append, pieces, if_neg (Ne.symm hp.1), ih hp.2]

/-- The first text ends at the first `&`. -/
theorem pieces_head (cs : List Char) : ∃ ps, pieces cs = cs.takeWhile (· != '&') :: ps := by
  induction cs with
  | nil => exact ⟨[], rfl⟩
  | cons c cs ih =>
    obtain ⟨ps, hps⟩ := ih
    by_cases hc : c = '&'
    · exact ⟨pieces cs, by rw [pieces, if_pos hc, List.takeWhile_cons_of_neg (by simp [hc])]⟩
    · exact ⟨ps, by rw [pieces, if_neg hc, hps, List.takeWhile_cons_of_pos (by simp [hc])]⟩

/-- A text without the separator, up to the separator. -/
theorem takeWhile_ne_append {c : Char} (hp : c ∉ p) : (p ++ c :: r).takeWhile (· != c) = p := by
  induction p with
  | nil => rw [List.nil_append, List.takeWhile_cons_of_neg (by simp)]
  | cons d ds ih =>
    rw [List.mem_cons, not_or] at hp
    rw [List.cons_append, List.takeWhile_cons_of_pos (by simpa using Ne.symm hp.1), ih hp.2]

theorem dropWhile_ne_append {c : Char} (hp : c ∉ p) : (p ++ c :: r).dropWhile (· != c) = c :: r := by
  induction p with
  | nil => rw [List.nil_append, List.dropWhile_cons_of_neg (by simp)]
  | cons d ds ih =>
    rw [List.mem_cons, not_or] at hp
    rw [List.cons_append, List.dropWhile_cons_of_pos (by simpa using Ne.symm hp.1), ih hp.2]

/-- Key and value are split at the first `=`. -/
theorem keyValue_append (hk : '=' ∉ k) : keyValue (k ++ '=' :: x) = (formDecode k, formDecode x) := by
  rw [keyValue, takeWhile_ne_append hk, dropWhile_ne_append hk, List.tail_cons]

/-- A parameter before the last one. -/
theorem get_append (key : List Char) (hp : '&' ∉ p) :
    get key (p ++ '&' :: r) = if utf8 key = (keyValue p).1 then some (keyValue p).2 else get key r := by
  rw [get, pieces_append hp, List.map_cons, List.lookup_cons]
  split
  · rename_i h
    rw [if_pos (beq_iff_eq.1 h)]
  · rename_i h
    rw [if_neg (beq_eq_false_iff_ne.1 h), get]

/-- The last parameter that was meant: its value ends at the first `&`. -/
theorem get_last (hk : noEscape k = true) (hamp : '&' ∉ k) (heq : '=' ∉ k) :
    get k (k ++ '=' :: x) = some (formDecode (x.takeWhile (· != '&'))) := by
  obtain ⟨ps, hps⟩ := pieces_head (k ++ '=' :: x)
  have hkeep : ∀ c ∈ k, (c != '&') = true := fun c hc => bne_iff_ne.2 fun he => hamp (he ▸ hc)
  rw [List.takeWhile_append_of_pos hkeep, List.takeWhile_cons_of_pos (by decide)] at hps
  rw [get, hps, List.map_cons, keyValue_append heq, (formDecode_eq_utf8_iff k).2 hk, List.lookup_cons, beq_self_eq_true]

/-! ## Reading a URL with an arbitrary end -/

/-- What is read of a text at the end of a URL, in its query. -/
def readTail (cs : List Char) : List Char :=
  ((cs.rdropWhile isTrimmed).filter fun c => !isRemoved c).takeWhile (· != '#')

/-- A character that stands for itself anywhere in a URL. -/
def isVisible (c : Char) : Bool := !isTrimmed c && c != '#'

theorem isTrimmed_of_isRemoved {c : Char} (h : isRemoved c = true) : isTrimmed c = true := by
  simp only [isRemoved, Bool.or_eq_true, beq_iff_eq] at h
  rcases h with (rfl | rfl) | rfl <;> rfl

/-- Trimming the end of a text stops at a text that needs none. -/
theorem rdropWhile_append (hne : l ≠ []) (hl : ∀ c ∈ l, isTrimmed c = false) :
    (l ++ x).rdropWhile isTrimmed = l ++ x.rdropWhile isTrimmed := by
  have hstop : l.reverse.dropWhile isTrimmed = l.reverse := by
    cases hr : l.reverse with
    | nil => exact absurd (List.reverse_eq_nil_iff.1 hr) hne
    | cons c cs =>
      have hc := hl c (by rw [← List.mem_reverse, hr]; exact List.mem_cons_self)
      rw [List.dropWhile_cons_of_neg (by simp [hc])]
  simp only [List.rdropWhile, List.reverse_append, List.dropWhile_append]
  split
  · rename_i h
    rw [List.isEmpty_iff.1 h, hstop, List.reverse_reverse, List.reverse_nil, List.append_nil]
  · rw [List.reverse_append, List.reverse_reverse]

/-- A clean text in front stays. -/
theorem clean_append (hne : l ≠ []) (hl : ∀ c ∈ l, isTrimmed c = false) :
    clean (l ++ x) = l ++ (x.rdropWhile isTrimmed).filter fun c => !isRemoved c := by
  have hhead : (l ++ x).dropWhile isTrimmed = l ++ x := by
    cases l with
    | nil => exact absurd rfl hne
    | cons c cs => rw [List.cons_append, List.dropWhile_cons_of_neg (by simp [hl c List.mem_cons_self])]
  have hkeep : l.filter (fun c => !isRemoved c) = l := by
    rw [List.filter_eq_self]
    intro c hc
    cases hr : isRemoved c with
    | false => rfl
    | true =>
      have ht := hl c hc
      rw [isTrimmed_of_isRemoved hr] at ht
      cases ht
  rw [clean, hhead, rdropWhile_append hne hl, List.filter_append, hkeep]

/-- A visible text in front stays up to the fragment. -/
theorem withoutFragment_append (hne : l ≠ []) (hl : ∀ c ∈ l, isVisible c = true) :
    withoutFragment (l ++ x) = l ++ readTail x := by
  have hvis : ∀ c ∈ l, isTrimmed c = false ∧ (c != '#') = true := fun c hc => by
    simpa only [isVisible, Bool.and_eq_true, Bool.not_eq_true'] using hl c hc
  rw [withoutFragment, clean_append hne fun c hc => (hvis c hc).1,
    List.takeWhile_append_of_pos fun c hc => (hvis c hc).2, readTail]

/-- A visible text, `?` and a visible text in front. -/
theorem withoutFragment_query (hl : ∀ c ∈ l, isVisible c = true) (hq : ∀ c ∈ q, isVisible c = true) :
    withoutFragment (l ++ '?' :: (q ++ x)) = l ++ '?' :: (q ++ readTail x) := by
  have hall : ∀ c ∈ l ++ '?' :: q, isVisible c = true := by
    intro c hc
    rcases List.mem_append.1 hc with hc | hc
    · exact hl c hc
    · rcases List.mem_cons.1 hc with rfl | hc
      · rfl
      · exact hq c hc
  have h := withoutFragment_append (x := x) (by simp) hall
  rwa [List.append_assoc, List.append_assoc] at h

/-- Scheme, host and path of a URL with a query. -/
theorem location_append (hl : ∀ c ∈ l, isVisible c = true) (hq : ∀ c ∈ q, isVisible c = true) (hmark : '?' ∉ l) :
    location (l ++ '?' :: (q ++ x)) = l := by
  rw [location, withoutFragment_query hl hq, takeWhile_ne_append hmark]

/-- **The query of a URL with an arbitrary end.** -/
theorem query_append (hl : ∀ c ∈ l, isVisible c = true) (hq : ∀ c ∈ q, isVisible c = true) (hmark : '?' ∉ l) :
    query (l ++ '?' :: (q ++ x)) = q ++ readTail x := by
  rw [query, withoutFragment_query hl hq, dropWhile_ne_append hmark, List.tail_cons]

/-- A visible URL without a query is its own location. -/
theorem location_self (hne : l ≠ []) (hl : ∀ c ∈ l, isVisible c = true) (hmark : '?' ∉ l) : location l = l := by
  have h := withoutFragment_append (x := []) hne hl
  rw [List.append_nil, show readTail [] = [] from rfl, List.append_nil] at h
  rw [location, h, List.takeWhile_eq_self_iff]
  intro c hc
  exact bne_iff_ne.2 fun he => hmark (he ▸ hc)

end Lib.Url

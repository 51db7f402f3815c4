import AiEngine.Lib.Bytes
import Mathlib.Data.List.Basic

/-!
# Self-delimiting formats

A format pairs a writer with a reader that takes a value off the front of a
string and hands back what is left. Two laws tie them together. Reading what
was written gives the value back and leaves the rest alone; and whatever the
reader accepts is, symbol for symbol, what the writer would have put there.
The second is the stronger one: it makes the reader accept the writer's image
and nothing else, so a format cannot have two spellings of one value.

Formats compose. This file builds raw blocks, little-endian words, counted
sequences and heterogeneous lists, and closes with the frame: a body followed
by a word that repeats the body's length. The frame is what turns "a prefix
of the input parses" into "the whole input is one encoding": a cut, an
extension or a changed length word is rejected, whatever the body's formats
are.
-/

namespace AiEngine.Lib

/-- A writer and a reader for values of `α` over symbols of `β`. `valid`
singles out the values the writer can spell. -/
structure Format (β α : Type) where
  enc : α → List β
  dec : List β → Option (α × List β)
  valid : α → Prop
  dec_enc : ∀ {a : α} (rest : List β), valid a →
    dec (enc a ++ rest) = some (a, rest)
  enc_dec : ∀ {bs rest : List β} {a : α}, dec bs = some (a, rest) →
    bs = enc a ++ rest ∧ valid a

namespace Format

variable {β α γ : Type}

/-- Rename the values of a format along a map with an inverse on the values
the format can spell. A new value is spelt when it is the name of such a
value. -/
def iso (f : Format β α) (fwd : α → γ) (back : γ → α)
    (hbf : ∀ a, f.valid a → back (fwd a) = a) : Format β γ where
  enc c := f.enc (back c)
  dec bs := (f.dec bs).map fun r => (fwd r.1, r.2)
  valid c := f.valid (back c) ∧ fwd (back c) = c
  dec_enc rest hv := by
    rw [f.dec_enc rest hv.1, Option.map_some, hv.2]
  enc_dec {bs rest c} h := by
    obtain ⟨r, hr, heq⟩ := Option.map_eq_some_iff.mp h
    obtain ⟨hbs, hv⟩ := f.enc_dec hr
    cases heq
    rw [hbf r.1 hv]
    exact ⟨hbs, hv, rfl⟩

/-- Exactly `n` symbols, taken as they are. -/
def block (n : Nat) : Format β (Vector β n) where
  enc v := v.toList
  dec bs :=
    if h : n ≤ bs.length then
      some (⟨(bs.take n).toArray, by simp [h]⟩, bs.drop n)
    else none
  valid _ := True
  dec_enc {v} rest _ := by
    have hlen : v.toList.length = n := Vector.length_toList
    rw [dif_pos (by rw [List.length_append]; omega)]
    congr 2
    · apply Vector.toList_inj.mp
      simp [hlen]
    · simp [hlen]
  enc_dec {bs rest v} h := by
    split at h
    · cases h
      simp
    · cases h

/-- A number in `n` little-endian bytes. -/
def word (n : Nat) : Format UInt8 Nat where
  enc := leBytes n
  dec bs :=
    if n ≤ bs.length then some (leNat (bs.take n), bs.drop n) else none
  valid x := x < 256 ^ n
  dec_enc {x} rest hx := by
    rw [if_pos (by simp)]
    simp [leNat_leBytes hx]
  enc_dec {bs rest x} h := by
    split at h
    · next hn =>
        cases h
        have hlen : (bs.take n).length = n := by simp [hn]
        have hle := leBytes_leNat (bs.take n)
        have hlt := leNat_lt (bs.take n)
        rw [hlen] at hle hlt
        exact ⟨by rw [hle, List.take_append_drop], hlt⟩
    · cases h

theorem word_dec {n : Nat} {bs : List UInt8} (h : n ≤ bs.length) :
    (word n).dec bs = some (leNat (bs.take n), bs.drop n) := if_pos h

theorem word_dec_short {n : Nat} {bs : List UInt8} (h : ¬ n ≤ bs.length) :
    (word n).dec bs = none := if_neg h

/-! ## Sequences

A list of symbols is written one after the other, with their number known to
the reader. That the reader stops at the right place is the induction; each
element leaves the rest of the input to the next one. -/

/-- Write a list of values one after the other. -/
def encList (f : Format β α) (xs : List α) : List β := xs.flatMap f.enc

/-- Read `n` values one after the other. -/
def decList (f : Format β α) : Nat → List β → Option (List α × List β)
  | 0, bs => some ([], bs)
  | n + 1, bs => do
      let (x, bs) ← f.dec bs
      let (xs, bs) ← f.decList n bs
      pure (x :: xs, bs)

theorem decList_encList (f : Format β α) {xs : List α}
    (hv : ∀ x ∈ xs, f.valid x) (rest : List β) :
    f.decList xs.length (f.encList xs ++ rest) = some (xs, rest) := by
  induction xs with
  | nil => rfl
  | cons x xs ih =>
      have hx := hv x (by simp)
      have hxs := ih fun y hy => hv y (by simp [hy])
      simp only [encList, List.flatMap_cons, List.append_assoc] at hxs ⊢
      simp [decList, f.dec_enc _ hx, hxs]

theorem encList_decList (f : Format β α) :
    ∀ {n : Nat} {bs rest : List β} {xs : List α},
      f.decList n bs = some (xs, rest) →
      bs = f.encList xs ++ rest ∧ xs.length = n ∧ ∀ x ∈ xs, f.valid x := by
  intro n
  induction n with
  | zero =>
      intro bs rest xs h
      cases h
      simp [encList]
  | succ n ih =>
      intro bs rest xs h
      simp only [decList, Option.bind_eq_bind, Option.bind_eq_some_iff,
        Option.pure_def, Option.some.injEq, Prod.mk.injEq] at h
      obtain ⟨⟨x, bs₁⟩, hx, ⟨ys, bs₂⟩, hys, rfl, rfl⟩ := h
      obtain ⟨hbs, hvx⟩ := f.enc_dec hx
      obtain ⟨hbs₁, hlen, hvys⟩ := ih hys
      refine ⟨?_, by simp [hlen], ?_⟩
      · simp only at hbs₁
        rw [hbs, hbs₁]
        simp [encList]
      · simpa using ⟨hvx, hvys⟩

/-- Values of one width take that width each. -/
theorem length_encList {f : Format β α} {k : Nat}
    (hk : ∀ x, (f.enc x).length = k) (xs : List α) :
    (f.encList xs).length = xs.length * k := by
  induction xs with
  | nil => simp [encList]
  | cons x xs ih =>
      simp only [encList, List.flatMap_cons, List.length_append,
        List.length_cons, hk] at ih ⊢
      rw [ih, Nat.succ_mul, Nat.add_comm]

/-- One symbol, taken as it is. -/
def symbol : Format β β where
  enc x := [x]
  dec bs := bs.head?.map fun x => (x, bs.tail)
  valid _ := True
  dec_enc _ _ := rfl
  enc_dec {bs rest x} h := by
    cases bs with
    | nil => cases h
    | cons b bs => cases h; exact ⟨rfl, trivial⟩

@[simp] theorem encList_symbol (xs : List β) : symbol.encList xs = xs := by
  induction xs with
  | nil => rfl
  | cons x xs ih =>
      simp only [encList, List.flatMap_cons] at ih ⊢
      rw [ih]
      rfl

/-- Reading `n` symbols takes them off the front, if there are that many. -/
theorem decList_symbol (n : Nat) (bs : List β) :
    symbol.decList n bs =
      if n ≤ bs.length then some (bs.take n, bs.drop n) else none := by
  induction n generalizing bs with
  | zero => simp [decList]
  | succ n ih =>
      cases bs with
      | nil => simp [decList, symbol]
      | cons b bs =>
          simp only [decList, symbol, List.head?_cons, Option.map_some,
            Option.bind_eq_bind, Option.bind_some, List.tail_cons] at ih ⊢
          rw [ih]
          split <;> simp_all

/-- A word that counts the values, then the values. -/
def counted (n : Nat) (f : Format UInt8 α) : Format UInt8 (List α) where
  enc xs := leBytes n xs.length ++ f.encList xs
  dec bs := do
    let (k, bs) ← (word n).dec bs
    f.decList k bs
  valid xs := xs.length < 256 ^ n ∧ ∀ x ∈ xs, f.valid x
  dec_enc {xs} rest hv := by
    have hw := (word n).dec_enc (a := xs.length) (f.encList xs ++ rest) hv.1
    simp only [word] at hw
    simp only [word, List.append_assoc, hw]
    exact f.decList_encList hv.2 rest
  enc_dec {bs rest xs} h := by
    simp only [Option.bind_eq_bind, Option.bind_eq_some_iff] at h
    obtain ⟨⟨k, bs₁⟩, hk, hxs⟩ := h
    obtain ⟨hbs, hvk⟩ := (word n).enc_dec hk
    obtain ⟨hbs₁, hlen, hvxs⟩ := f.encList_decList hxs
    simp only at hbs₁
    subst hlen
    refine ⟨?_, hvk, hvxs⟩
    rw [hbs, hbs₁, ← List.append_assoc]
    rfl

/-! ## Lists of values of different types

The same for values whose formats differ, where the list of the formats is
what both sides agree on. -/

variable {τ : Type} {V : τ → Type}

/-- Write values of different types, each in the format of its type. -/
def encAll (f : (t : τ) → Format β (V t)) (ps : List (Sigma V)) : List β :=
  ps.flatMap fun p => (f p.1).enc p.2

/-- Read one value of each listed type. -/
def decAll (f : (t : τ) → Format β (V t)) :
    List τ → List β → Option (List (Sigma V) × List β)
  | [], bs => some ([], bs)
  | t :: ts, bs => do
      let (v, bs) ← (f t).dec bs
      let (ps, bs) ← decAll f ts bs
      pure (⟨t, v⟩ :: ps, bs)

theorem decAll_encAll (f : (t : τ) → Format β (V t)) {ps : List (Sigma V)}
    (hv : ∀ p ∈ ps, (f p.1).valid p.2) (rest : List β) :
    decAll f (ps.map Sigma.fst) (encAll f ps ++ rest) = some (ps, rest) := by
  induction ps with
  | nil => rfl
  | cons p ps ih =>
      have hp := hv p (by simp)
      have hps := ih fun q hq => hv q (by simp [hq])
      simp only [encAll, List.flatMap_cons, List.append_assoc] at hps ⊢
      simp [decAll, (f p.1).dec_enc _ hp, hps]

theorem encAll_decAll (f : (t : τ) → Format β (V t)) :
    ∀ {ts : List τ} {bs rest : List β} {ps : List (Sigma V)},
      decAll f ts bs = some (ps, rest) →
      bs = encAll f ps ++ rest ∧ ps.map Sigma.fst = ts ∧
        ∀ p ∈ ps, (f p.1).valid p.2 := by
  intro ts
  induction ts with
  | nil =>
      intro bs rest ps h
      cases h
      simp [encAll]
  | cons t ts ih =>
      intro bs rest ps h
      simp only [decAll, Option.bind_eq_bind, Option.bind_eq_some_iff,
        Option.pure_def, Option.some.injEq, Prod.mk.injEq] at h
      obtain ⟨⟨v, bs₁⟩, hx, ⟨qs, bs₂⟩, hqs, rfl, rfl⟩ := h
      obtain ⟨hbs, hvx⟩ := (f t).enc_dec hx
      obtain ⟨hbs₁, hts, hvqs⟩ := ih hqs
      refine ⟨?_, by simp [hts], ?_⟩
      · simp only at hbs₁
        rw [hbs, hbs₁]
        simp [encAll]
      · simpa using ⟨hvx, hvqs⟩

/-! ## The frame

What surrounds a body: an extension the reader skips, and a trailer it insists
on. Every way a frame can be wrong is one of the hypotheses of
`decFramed_of_body` that fails. -/

/-- A body and the word that repeats its length. -/
def encFramed (n : Nat) (body : List UInt8) : List UInt8 :=
  body ++ leBytes n body.length

/-- Read the listed types and insist that exactly one word is left, equal to
the number of bytes read before it. -/
def decFramed (n : Nat) (f : (t : τ) → Format UInt8 (V t)) (ts : List τ)
    (bs : List UInt8) : Option (List (Sigma V)) :=
  match decAll f ts bs with
  | some (ps, rest) =>
      if rest = leBytes n (bs.length - rest.length) then some ps else none
  | none => none

/-- What the framed reader accepts is the frame of the encoding it names. -/
theorem decFramed_eq_some {n : Nat} {f : (t : τ) → Format UInt8 (V t)}
    {ts : List τ} {bs : List UInt8} {ps : List (Sigma V)} :
    decFramed n f ts bs = some ps ↔
      bs = encFramed n (encAll f ps) ∧ ps.map Sigma.fst = ts ∧
        ∀ p ∈ ps, (f p.1).valid p.2 := by
  constructor
  · intro h
    unfold decFramed at h
    split at h
    · next qs rest hdec =>
        obtain ⟨hbs, hts, hv⟩ := encAll_decAll f hdec
        split at h
        · next hrest =>
            cases h
            have hlen : bs.length - rest.length = (encAll f ps).length := by
              rw [hbs, List.length_append]
              omega
            rw [hlen] at hrest
            exact ⟨by rw [encFramed, ← hrest]; exact hbs, hts, hv⟩
        · cases h
    · cases h
  · rintro ⟨rfl, rfl, hv⟩
    unfold decFramed encFramed
    rw [decAll_encAll f hv]
    simp

/-- Two frames of the same type list that agree on one's body agree. This is
the shape all three tampering results share. -/
theorem decFramed_of_body {n : Nat} {f : (t : τ) → Format UInt8 (V t)}
    {ps qs : List (Sigma V)} {rest : List UInt8}
    (hv : ∀ p ∈ ps, (f p.1).valid p.2)
    (h : decFramed n f (ps.map Sigma.fst) (encAll f ps ++ rest) = some qs) :
    rest = leBytes n (encAll f ps).length := by
  unfold decFramed at h
  rw [decAll_encAll f hv] at h
  simp only [List.length_append, Nat.add_sub_cancel] at h
  split at h
  · assumption
  · cases h

/-- Bytes appended to a frame are noticed. -/
theorem decFramed_extension {n : Nat} {f : (t : τ) → Format UInt8 (V t)}
    {ps : List (Sigma V)} {more : List UInt8}
    (hv : ∀ p ∈ ps, (f p.1).valid p.2) (hmore : more ≠ []) :
    decFramed n f (ps.map Sigma.fst)
      (encFramed n (encAll f ps) ++ more) = none := by
  rw [Option.eq_none_iff_forall_ne_some]
  intro qs h
  rw [encFramed, List.append_assoc] at h
  have := decFramed_of_body hv h
  simp at this
  exact hmore this

/-- A changed length word is noticed. -/
theorem decFramed_trailer {n : Nat} {f : (t : τ) → Format UInt8 (V t)}
    {ps : List (Sigma V)} {word : List UInt8}
    (hv : ∀ p ∈ ps, (f p.1).valid p.2)
    (hword : word ≠ leBytes n (encAll f ps).length) :
    decFramed n f (ps.map Sigma.fst) (encAll f ps ++ word) = none := by
  rw [Option.eq_none_iff_forall_ne_some]
  intro qs h
  exact hword (decFramed_of_body hv h)

/-- A cut is noticed: a strict prefix of a frame is no frame of the same
types. -/
theorem decFramed_prefix {n : Nat} {f : (t : τ) → Format UInt8 (V t)}
    {ps : List (Sigma V)} {cut more : List UInt8}
    (hv : ∀ p ∈ ps, (f p.1).valid p.2)
    (hcut : cut ++ more = encFramed n (encAll f ps)) (hmore : more ≠ []) :
    decFramed n f (ps.map Sigma.fst) cut = none := by
  rw [Option.eq_none_iff_forall_ne_some]
  intro qs h
  obtain ⟨hframe, hts, hvq⟩ := decFramed_eq_some.mp h
  -- The cut is itself a frame, of `qs`; read `qs` off both strings.
  have hwhole : encAll f qs ++ (leBytes n (encAll f qs).length ++ more)
      = encAll f ps ++ leBytes n (encAll f ps).length := by
    rw [← List.append_assoc, ← encFramed, ← encFramed, ← hframe]
    exact hcut
  have hq := decAll_encAll f hvq (leBytes n (encAll f qs).length ++ more)
  rw [hwhole, hts, decAll_encAll f hv] at hq
  injection hq with hq
  injection hq with hqs hrest
  have hlen := congrArg List.length hrest
  simp at hlen
  exact hmore hlen

end Format

end AiEngine.Lib

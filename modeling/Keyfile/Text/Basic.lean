namespace Keyfile

abbrev Text := List Char

def chars (s : String) : Text := s.toList

abbrev cut (separator : Char) (t : Text) : List Text := t.splitOn separator

/-- The characters of the Unicode property White_Space, such as the no-break space. -/
def isBlank (c : Char) : Bool :=
  let n := c.toNat
  (9 ≤ n && n ≤ 13) || n == 0x20 || n == 0x85 || n == 0xA0 || n == 0x1680 ||
    (0x2000 ≤ n && n ≤ 0x200A) || n == 0x2028 || n == 0x2029 || n == 0x202F ||
    n == 0x205F || n == 0x3000

namespace Text

def trimStart (t : Text) : Text := t.dropWhile isBlank

def trimEnd (t : Text) : Text := (t.reverse.dropWhile isBlank).reverse

def trim (t : Text) : Text := trimEnd (trimStart t)

def finalBackslashes (t : Text) : Nat := (t.reverse.takeWhile (· = '\\')).length

/-- One text stands before another in the order of code points. -/
def before : Text → Text → Bool
  | _, [] => false
  | [], _ :: _ => true
  | a :: as, b :: bs => a.toNat < b.toNat || (a = b && before as bs)

theorem before_cons (a b : Char) (as bs : Text) :
    before (a :: as) (b :: bs) ↔ a.toNat < b.toNat ∨ a = b ∧ before as bs := by
  simp [before]

theorem before_irrefl (t : Text) : ¬ t.before t := by
  induction t with
  | nil => simp [before]
  | cons a as ih => simp [before_cons, ih]

theorem before_trans {s t u : Text} (st : s.before t) (tu : t.before u) : s.before u := by
  induction s generalizing t u with
  | nil => cases t <;> cases u <;> simp_all [before]
  | cons a as ih =>
    cases t with
    | nil => simp [before] at st
    | cons b bs => cases u with
      | nil => simp [before] at tu
      | cons c cs =>
        rw [before_cons] at st tu ⊢
        rcases st with ab | ⟨rfl, st⟩
        · rcases tu with bc | ⟨rfl, _⟩
          · exact Or.inl (Nat.lt_trans ab bc)
          · exact Or.inl ab
        · exact tu.imp id fun ⟨same, tu⟩ => ⟨same, ih st tu⟩

theorem eq_of_not_before {s t : Text} (st : ¬ s.before t) (ts : ¬ t.before s) : s = t := by
  induction s generalizing t with
  | nil => cases t <;> simp_all [before]
  | cons a as ih => cases t with
    | nil => simp [before] at ts
    | cons b bs =>
      rw [before_cons] at st ts
      have same : a = b := by
        apply Char.ext
        apply UInt32.toNat_inj.mp
        change a.toNat = b.toNat
        omega
      subst same
      rw [ih (fun h => st (Or.inr ⟨rfl, h⟩)) (fun h => ts (Or.inr ⟨rfl, h⟩))]

def ofNat (n : Nat) : Text := Nat.toDigits 10 n

end Text

end Keyfile

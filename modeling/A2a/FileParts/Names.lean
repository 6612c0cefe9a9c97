import A2a.FileParts
import Mathlib.Data.List.TakeWhile

/-!
# A2a.FileParts.Names

A numbered file name tells the name and the number it was made from
(`numbered_inj`), so two numbered names never meet.
-/

namespace A2a

/-! ## splitting at the last of a separator -/

/-- A list is split at the last of a separator in one way only. -/
theorem append_cons_inj_of_last {α : Type} {c : α} {xs ys us vs : List α} (hy : c ∉ ys)
    (hv : c ∉ vs) (h : xs ++ c :: ys = us ++ c :: vs) : xs = us ∧ ys = vs := by
  rcases List.append_eq_append_iff.mp h with ⟨between, hus, hys⟩ | ⟨between, hxs, hvs⟩
  · cases between with
    | nil =>
        simp only [List.nil_append, List.cons.injEq, true_and] at hys
        exact ⟨by rw [hus, List.append_nil], hys⟩
    | cons d between =>
        simp only [List.cons_append, List.cons.injEq] at hys
        exact absurd (hys.2 ▸ List.mem_append_right _ List.mem_cons_self) hy
  · cases between with
    | nil =>
        simp only [List.nil_append, List.cons.injEq, true_and] at hvs
        exact ⟨by rw [hxs, List.append_nil], hvs.symm⟩
    | cons d between =>
        simp only [List.cons_append, List.cons.injEq] at hvs
        exact absurd (hvs.2 ▸ List.mem_append_right _ List.mem_cons_self) hv

theorem splitLastDot_eq_some {cs stem ext : List Char} (h : splitLastDot cs = some (stem, ext)) :
    cs = stem ++ '.' :: ext ∧ '.' ∉ ext := by
  unfold splitLastDot at h
  split at h
  · contradiction
  · next d before hdrop =>
      simp only [Option.some.injEq, Prod.mk.injEq] at h
      obtain ⟨hstem, hext⟩ := h
      have hd : d = '.' := by
        have hhead := List.head?_dropWhile_not (fun c : Char => c != '.') cs.reverse
        rw [hdrop] at hhead
        simpa using hhead
      have hsplit : cs.reverse = (cs.reverse.takeWhile (· != '.')) ++ '.' :: before := by
        rw [hd] at hdrop
        rw [← hdrop, List.takeWhile_append_dropWhile]
      constructor
      · rw [← List.reverse_reverse cs, hsplit, ← hstem, ← hext]
        simp
      · rw [← hext]
        intro hmem
        have hdot := List.mem_takeWhile_imp (List.mem_reverse.mp hmem)
        simp at hdot

theorem splitLastDot_eq_none {cs : List Char} (h : splitLastDot cs = none) : '.' ∉ cs := by
  unfold splitLastDot at h
  split at h
  · next hdrop =>
      intro hmem
      have hall := List.dropWhile_eq_nil_iff.mp hdrop '.' (List.mem_reverse.mpr hmem)
      simp at hall
  · contradiction

/-! ## numbered names -/

/-- What is put after the stem. -/
def numberSuffix (n : Nat) : List Char := ' ' :: '(' :: (Nat.toDigits 10 n ++ [')'])

theorem toDigits_inj {n m : Nat} (h : Nat.toDigits 10 n = Nat.toDigits 10 m) : n = m := by
  have hvalue := congrArg (fun cs => Nat.ofDigitChars 10 cs 0) h
  simpa [Nat.ofDigitChars_ten_toDigits] using hvalue

theorem notMem_toDigits {c : Char} (hc : c.isDigit = false) (n : Nat) : c ∉ Nat.toDigits 10 n := by
  intro hmem
  have hdigit := Nat.isDigit_of_mem_toDigits (by decide) (by decide) hmem
  rw [hc] at hdigit
  contradiction

theorem append_numberSuffix_inj {xs ys : List Char} {n m : Nat}
    (h : xs ++ numberSuffix n = ys ++ numberSuffix m) : xs = ys ∧ n = m := by
  have hspace (k : Nat) : ' ' ∉ '(' :: (Nat.toDigits 10 k ++ [')']) := by
    simp [notMem_toDigits]
  obtain ⟨hxs, hrest⟩ := append_cons_inj_of_last (hspace n) (hspace m) h
  simp only [List.cons.injEq, true_and, List.append_cancel_right_eq] at hrest
  exact ⟨hxs, toDigits_inj hrest⟩

theorem dot_notMem_numberSuffix (n : Nat) : '.' ∉ numberSuffix n := by
  simp [numberSuffix, notMem_toDigits]

/-- A name is numbered before its extension or, if it has none, at its end;
what stands before a dot it has is then nothing or a dot. -/
theorem toList_numbered (name : String) (n : Nat) :
    (∃ stem ext, name.toList = stem ++ '.' :: ext ∧ '.' ∉ ext ∧
      (numbered name n).toList = (stem ++ numberSuffix n) ++ '.' :: ext) ∨
    ((∀ stem ext, name.toList = stem ++ '.' :: ext → '.' ∉ ext → stem = [] ∨ stem = ['.']) ∧
      (numbered name n).toList = name.toList ++ numberSuffix n) := by
  have hend : (s!"{name} ({n})").toList = name.toList ++ numberSuffix n := by
    simp [numberSuffix, toString]
  unfold numbered fileStem extension
  cases hdots : isDots name with
  | true =>
      right
      refine ⟨fun stem ext hname hext => ?_, by simpa using hend⟩
      unfold isDots at hdots
      simp only [Bool.or_eq_true, decide_eq_true_eq] at hdots
      obtain (rfl | rfl) | rfl := hdots
      · simp at hname
      · have hdot : stem ++ '.' :: ext = [] ++ '.' :: [] := hname.symm.trans rfl
        exact .inl (append_cons_inj_of_last hext (by simp) hdot).1
      · have hdots : stem ++ '.' :: ext = ['.'] ++ '.' :: [] := hname.symm.trans rfl
        exact .inr (append_cons_inj_of_last hext (by simp) hdots).1
  | false =>
      cases hsplit : splitLastDot name.toList with
      | none =>
          right
          refine ⟨fun stem ext hname _ => ?_, by simpa using hend⟩
          exact absurd (hname ▸ by simp) (splitLastDot_eq_none hsplit)
      | some split =>
          obtain ⟨stem, ext⟩ := split
          obtain ⟨hname, hext⟩ := splitLastDot_eq_some hsplit
          cases stem with
          | nil =>
              right
              refine ⟨fun stem ext' hname' hext' => ?_, by simpa using hend⟩
              exact .inl (append_cons_inj_of_last hext' hext (hname'.symm.trans hname)).1
          | cons c stem =>
              left
              refine ⟨c :: stem, ext, hname, hext, ?_⟩
              simp [numberSuffix, toString]

/-- A name numbered at its end does not look like one numbered before an
extension. -/
theorem numbered_apart {name stem ext : List Char} {n m : Nat} (hext : '.' ∉ ext)
    (hplain : ∀ stem ext, name = stem ++ '.' :: ext → '.' ∉ ext → stem = [] ∨ stem = ['.']) :
    (stem ++ numberSuffix n) ++ '.' :: ext ≠ name ++ numberSuffix m := by
  intro h
  cases hsplit : splitLastDot name with
  | none =>
      have hdot : '.' ∈ name ++ numberSuffix m := h ▸ by simp
      cases List.mem_append.mp hdot with
      | inl hmem => exact splitLastDot_eq_none hsplit hmem
      | inr hmem => exact dot_notMem_numberSuffix m hmem
  | some split =>
      obtain ⟨before, after⟩ := split
      obtain ⟨hname, hv⟩ := splitLastDot_eq_some hsplit
      have hv' : '.' ∉ after ++ numberSuffix m := by
        rw [List.mem_append, not_or]
        exact ⟨hv, dot_notMem_numberSuffix m⟩
      rw [hname, List.append_assoc before, List.cons_append] at h
      have hstem := (append_cons_inj_of_last hext hv' h).1
      have hlength := congrArg List.length hstem
      simp only [List.length_append, numberSuffix, List.length_cons] at hlength
      cases hplain before after hname hv with
      | inl hnil => simp [hnil] at hlength
      | inr hdot =>
          rw [hdot, List.length_singleton] at hlength
          omega

/-- **A numbered name tells the name and the number.** -/
theorem numbered_inj {name other : String} {n m : Nat} (h : numbered name n = numbered other m) :
    name = other ∧ n = m := by
  have hlist : (numbered name n).toList = (numbered other m).toList := by rw [h]
  rcases toList_numbered name n with ⟨stem, ext, hname, hext, hn⟩ | ⟨hplain, hn⟩ <;>
    rcases toList_numbered other m with ⟨stem', ext', hother, hext', hm⟩ | ⟨hplain', hm⟩ <;>
    rw [hn, hm] at hlist
  · obtain ⟨hstem, hext⟩ := append_cons_inj_of_last hext hext' hlist
    obtain ⟨hstem, hnm⟩ := append_numberSuffix_inj hstem
    exact ⟨String.toList_inj.mp (by rw [hname, hother, hstem, hext]), hnm⟩
  · exact absurd hlist (numbered_apart hext hplain')
  · exact absurd hlist.symm (numbered_apart hext' hplain)
  · obtain ⟨hname, hnm⟩ := append_numberSuffix_inj hlist
    exact ⟨String.toList_inj.mp hname, hnm⟩

end A2a

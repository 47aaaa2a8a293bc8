import Dialect.Format.Request
import Mathlib.Data.List.TakeWhile

namespace Dialect.Format.Request

-- A cut loses nothing.
theorem text_split (format : String) : (split format).text = format := by
  rw [← String.toList_inj]
  simp [text, split, String.toList_append]

-- The options of a format, as a text: there are none, or a sign begins them.
def IsOptions (text : String) : Prop :=
  text.toList.head?.all startsOptions

instance (text : String) : Decidable (IsOptions text) :=
  inferInstanceAs (Decidable (text.toList.head?.all startsOptions = true))

theorem IsOptions.takeWhile_eq_nil {text : String} (h : IsOptions text) :
    text.toList.takeWhile (fun c => !startsOptions c) = [] := by
  rw [IsOptions] at h
  cases htext : text.toList with
  | nil => rfl
  | cons c rest =>
      rw [htext] at h
      have hc : startsOptions c := h
      simp [hc]

-- A text without signs, with options behind it, is cut exactly there.
theorem split_append {base options : String} (hbase : ∀ c ∈ base.toList, startsOptions c = false)
    (hoptions : IsOptions options) : split (base ++ options) = ⟨base, options⟩ := by
  have hpos : ∀ c ∈ base.toList, (!startsOptions c) = true := fun c hc => by simp [hbase c hc]
  have hnone := hoptions.takeWhile_eq_nil
  have hdrop : options.toList.dropWhile (fun c => !startsOptions c) = options.toList := by
    have hcut := List.takeWhile_append_dropWhile (p := fun c => !startsOptions c)
      (l := options.toList)
    rwa [hnone, List.nil_append] at hcut
  simp only [split, String.toList_append, List.takeWhile_append_of_pos hpos,
    List.dropWhile_append_of_pos hpos, hnone, hdrop, List.append_nil, String.ofList_toList]

theorem IsOptions.append {first second : String} (hfirst : IsOptions first)
    (hsecond : IsOptions second) : IsOptions (first ++ second) := by
  unfold IsOptions at hfirst hsecond ⊢
  rw [String.toList_append]
  cases htext : first.toList with
  | nil => rwa [List.nil_append]
  | cons c rest => rwa [htext] at hfirst

theorem isOptions_split (format : String) : IsOptions (split format).options := by
  have hhead := List.head?_dropWhile_not (fun c => !startsOptions c) format.toList
  rw [IsOptions, split, String.toList_ofList]
  cases hc : (format.toList.dropWhile fun c => !startsOptions c).head? with
  | none => rfl
  | some c =>
      rw [hc] at hhead
      simpa using hhead

theorem not_startsOptions_of_mem_base {format : String} {c : Char}
    (hc : c ∈ (split format).base.toList) : startsOptions c = false := by
  rw [split, String.toList_ofList] at hc
  simpa using List.mem_takeWhile_imp hc

-- Toggles that are put into a format do not move the cut.
theorem split_extend {first last : String} (hfirst : IsOptions first) (hlast : IsOptions last)
    (format : String) : split (extend format first last) =
      ⟨(split format).base, first ++ (split format).options ++ last⟩ := by
  have hall : IsOptions (first ++ (split format).options ++ last) :=
    (hfirst.append (isOptions_split format)).append hlast
  have htext : extend format first last =
      (split format).base ++ (first ++ (split format).options ++ last) := by
    simp only [extend, String.append_assoc]
  rw [htext]
  exact split_append (fun _ hc => not_startsOptions_of_mem_base hc) hall

-- What is put in later stands further out.
theorem extend_extend {first last : String} (hfirst : IsOptions first) (hlast : IsOptions last)
    (format before behind : String) : extend (extend format first last) before behind =
      extend format (before ++ first) (last ++ behind) := by
  rw [extend, split_extend hfirst hlast, extend]
  simp only [String.append_assoc]

end Dialect.Format.Request

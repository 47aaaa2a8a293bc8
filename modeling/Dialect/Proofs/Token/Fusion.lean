import Dialect.Proofs.Token.Rewriting

namespace Dialect.Transform

open Token

-- A change of the tag alone: the payload stays, and the new tag hangs on the old one only.
structure Relabels (g : Token → Token) : Prop where
  payload : ∀ t, (g t).payload = t.payload
  tag : ∀ t t', t.tag = t'.tag → (g t).tag = (g t').tag

variable {f g : Token → Token} {vs ws us : List Value} {seen again : List Token}

-- Two passes are one. In the one pass `g` is called while the payload is still as `f` left it,
-- in the two when it has been rebuilt, which `g` cannot tell apart.
theorem Yields.fuse (hg : Relabels g) (h : Yields f vs seen ws) (hagain : Yields g ws again us) :
    Yields (g ∘ f) vs seen us := by
  induction h generalizing again us with
  | nil =>
      cases hagain
      exact .nil
  | @token tag payload payload' _ _ _ _ _ _ ihpayload ihvs =>
      cases hagain with
      | token hpayload hws =>
          rw [hg.payload] at hpayload
          have hinner := ihpayload hpayload
          rw [← hg.payload] at hinner
          have htag : (g ⟨(f ⟨tag, payload⟩).tag, payload'⟩).tag = (g (f ⟨tag, payload⟩)).tag :=
            hg.tag _ _ rfl
          rw [htag]
          exact .token hinner (ihvs hws)
      | leaf hleaf => simp [isOpaque] at hleaf
  | list _ _ ihitems ihvs =>
      cases hagain with
      | list hitems hws => exact .list (ihitems hitems) (ihvs hws)
      | leaf hleaf => simp [isOpaque] at hleaf
  | leaf hleaf _ ihvs =>
      cases hagain with
      | leaf _ hws => exact .leaf hleaf (ihvs hws)
      | _ => simp [isOpaque] at hleaf

-- A transformation that comes to an end, and a relabelling of its result, are one transformation:
-- both come to an end, in the same tree and in no other, the relabelling with one call for each
-- token of the first result, and the two in one with the calls of the first alone.
theorem fuse_of_ends (hg : Relabels g) (h : Ends f vs seen ws) :
    ∃ us, (∀ again ws', Ends g ws again ws' ↔ again = visit ws ∧ ws' = us) ∧
      ∀ seen' ws', Ends (g ∘ f) vs seen' ws' ↔ seen' = seen ∧ ws' = us := by
  obtain ⟨us, hagain⟩ := exists_yields_of_keeps fun t (_ : t ∈ visit ws) => hg.payload t
  have hfused := (ends_iff.mp h).fuse hg hagain
  exact ⟨us, fun _ _ => hagain.ends_eq_iff, fun _ _ => hfused.ends_eq_iff⟩

-- An image becomes a figure with a caption below it, and what stood in the caption is put in
-- parentheses. Both passes meet the caption and the parentheses only because they were put in.
private def caption (t : Token) : Token :=
  if t.tag = "Image" then ⟨"Figure", .list [.token "Caption" t.payload]⟩
  else if t.tag = "Caption" then
    ⟨"Plain", .list [.token "Mark" (.str "("), t.payload, .token "Mark" (.str ")")]⟩
  else if t.tag = "Mark" then ⟨"Str", t.payload⟩
  else t

private def outline (t : Token) : Token :=
  ⟨if t.tag = "Str" then "Mark" else if t.tag = "Figure" then "Image" else t.tag, t.payload⟩

private theorem relabels_outline : Relabels outline where
  payload _ := rfl
  tag t t' h := by simp only [outline, h]

private def pictured : List Value :=
  [.token "Para" (.list [.int 1, .token "Image" (.token "Str" (.str "a"))])]

private def pictureCalls : List Token :=
  [⟨"Para", .list [.int 1, .token "Image" (.token "Str" (.str "a"))]⟩,
    ⟨"Image", .token "Str" (.str "a")⟩, ⟨"Caption", .token "Str" (.str "a")⟩,
    ⟨"Mark", .str "("⟩, ⟨"Str", .str "a"⟩, ⟨"Mark", .str ")"⟩]

-- A figure with a caption of three words, under the tags that figures and words go by.
private def figure (kind word : Text) : List Value :=
  [.token "Para" (.list [.int 1, .token kind (.list [.token "Plain" (.list
    [.token word (.str "("), .token word (.str "a"), .token word (.str ")")])])])]

private theorem ends_pictured : Ends caption pictured pictureCalls (figure "Figure" "Str") :=
  ⟨9, by decide, by decide⟩

theorem fuse_of_ends_pictured : Relabels outline ∧
    Ends caption pictured pictureCalls (figure "Figure" "Str") ∧
    Ends outline (figure "Figure" "Str") (visit (figure "Figure" "Str")) (figure "Image" "Mark") ∧
    Ends (outline ∘ caption) pictured pictureCalls (figure "Image" "Mark") := by
  obtain ⟨us, hagain, hfused⟩ := fuse_of_ends relabels_outline ends_pictured
  have hend : Ends outline (figure "Figure" "Str") (visit (figure "Figure" "Str"))
      (figure "Image" "Mark") := ⟨9, by decide, by decide⟩
  have hus : figure "Image" "Mark" = us := ((hagain _ _).mp hend).2
  exact ⟨relabels_outline, ends_pictured, hend, (hfused _ _).mpr ⟨rfl, hus⟩⟩

end Dialect.Transform

import Dialect.Config.Store
import Dialect.Proofs.Config.Merge.Lemmas

namespace Dialect.Config.Store

-- The mappings that one gets to see: by place, those that are not hidden.
def view (s : Store) (hidden : List Nat) (place : Nat) : Option (Entries Key Held) :=
  if place ∈ hidden then none else s.bodies[place]?

mutual

-- What is held means a value, as far as one gets to see the mappings that it takes.
inductive Means (view : Nat → Option (Entries Key Held)) : Held → Setting → Prop
  | value {v : Setting} (h : ¬v.IsMapping) : Means view (.value v) v
  | mapping {place : Nat} {body : Entries Key Held} {entries : Entries Key Setting}
      (seen : view place = some body) (members : MeansAll view body entries) :
      Means view (.mapping place) (.obj entries)

inductive MeansAll (view : Nat → Option (Entries Key Held)) :
    Entries Key Held → Entries Key Setting → Prop
  | nil : MeansAll view [] []
  | cons {held : Held} {v : Setting} {body : Entries Key Held}
      {entries : Entries Key Setting} (key : Key) (head : Means view held v) (tail : MeansAll view body entries) :
      MeansAll view ((key, held) :: body) ((key, v) :: entries)

end

variable {v v' : Nat → Option (Entries Key Held)}

mutual

theorem Means.mono (hsub : ∀ place body, v place = some body → v' place = some body) :
    ∀ {held : Held} {j : Setting}, Means v held j → Means v' held j
  | _, _, .value h => .value h
  | _, _, .mapping seen members => .mapping (hsub _ _ seen) (members.mono hsub)

theorem MeansAll.mono (hsub : ∀ place body, v place = some body → v' place = some body) :
    ∀ {body : Entries Key Held} {entries : Entries Key Setting}, MeansAll v body entries →
      MeansAll v' body entries
  | _, _, .nil => .nil
  | _, _, .cons key head tail => .cons key (head.mono hsub) (tail.mono hsub)

end

section Members

theorem means_mapping_iff {place : Nat} {entries : Entries Key Setting} :
    Means v (.mapping place) (.obj entries) ↔
      ∃ body, v place = some body ∧ MeansAll v body entries := by
  constructor
  · intro h
    cases h with
    | mapping seen members => exact ⟨_, seen, members⟩
  · rintro ⟨body, seen, members⟩
    exact .mapping seen members

variable {body : Entries Key Held} {entries : Entries Key Setting} {held : Held} {j : Setting}
  {key : Key}

-- Under each key, what is held means the value that is there; neither has a key without the other.
theorem MeansAll.get? (h : MeansAll v body entries) (key : Key) :
    Entries.get? key body = none ∧ Entries.get? key entries = none ∨
      ∃ held j, Entries.get? key body = some held ∧ Entries.get? key entries = some j ∧
        Means v held j := by
  induction entries generalizing body with
  | nil =>
      cases h
      exact .inl ⟨rfl, rfl⟩
  | cons entry rest ih =>
      cases h with
      | cons name head tail =>
          by_cases hname : name = key
          · exact .inr ⟨_, _, if_pos hname, if_pos hname, head⟩
          · simpa only [Entries.get?, hname, if_false] using ih tail

theorem MeansAll.put (h : MeansAll v body entries) (hheld : Means v held j) :
    MeansAll v (Entries.put key held body) (Entries.put key j entries) := by
  induction entries generalizing body with
  | nil =>
      cases h
      exact .cons key hheld .nil
  | cons entry rest ih =>
      cases h with
      | cons name head tail =>
          simp only [Entries.put]
          split
          · exact .cons key hheld tail
          · exact .cons name head (ih tail)

end Members

-- Whatever could be read somewhere else is there as it was.
def Kept (s t : Store) (except : List Nat) : Prop :=
  ∀ place body, place ∉ except → s.bodies[place]? = some body → t.bodies[place]? = some body

variable {s t u : Store} {hidden except : List Nat} {place : Nat} {key : Key} {held : Held}
  {body : Entries Key Held}

theorem Kept.refl (s : Store) (except : List Nat) : s.Kept s except :=
  fun _ _ _ h => h

theorem Kept.trans (h : s.Kept t except) (h' : t.Kept u except) : s.Kept u except :=
  fun place body hplace hbody => h' place body hplace (h place body hplace hbody)

theorem Kept.length_le (h : s.Kept t except) (hexcept : ∀ place ∈ except, place < t.bodies.length) :
    s.bodies.length ≤ t.bodies.length := by
  by_contra hlt
  have hlast : t.bodies.length < s.bodies.length := by omega
  have hkept := h t.bodies.length _ (fun hmem => (hexcept _ hmem).false)
    (List.getElem?_eq_getElem hlast)
  simp at hkept

theorem kept_append (s : Store) (body : Entries Key Held) : s.Kept ⟨s.bodies ++ [body]⟩ except := by
  intro place body _ hbody
  rw [List.getElem?_append_left (List.getElem?_eq_some_iff.mp hbody).1, hbody]

theorem getElem?_of_view (h : s.view hidden place = some body) :
    place ∉ hidden ∧ s.bodies[place]? = some body := by
  unfold view at h
  split at h
  · cases h
  · exact ⟨‹_›, h⟩

theorem Kept.view (h : s.Kept t except) (hsub : except ⊆ hidden) (place : Nat)
    (body : Entries Key Held) (hbody : s.view hidden place = some body) :
    t.view hidden place = some body := by
  obtain ⟨hplace, hbody⟩ := getElem?_of_view hbody
  rw [Store.view, if_neg hplace]
  exact h place body (fun hmem => hplace (hsub hmem)) hbody

-- A place that is not hidden any more shows what is there, and the others show what they showed.
theorem view_of_view_cons (other : Nat) (body : Entries Key Held)
    (h : s.view (place :: hidden) other = some body) : s.view hidden other = some body := by
  obtain ⟨hother, hbody⟩ := getElem?_of_view h
  rw [view, if_neg fun hmem => hother (List.mem_cons_of_mem _ hmem), hbody]

theorem getElem?_write (s : Store) (place : Nat) (key : Key) (held : Held) (other : Nat) :
    (s.write place key held).bodies[other]? =
      if place = other then s.bodies[other]?.map (Entries.put key held) else s.bodies[other]? := by
  simp only [write, List.getElem?_modify]
  split
  · rfl
  · simp

theorem kept_write (s : Store) (place : Nat) (key : Key) (held : Held) :
    s.Kept (s.write place key held) [place] := by
  intro other body hother hbody
  rw [getElem?_write, if_neg (by simpa [eq_comm] using hother), hbody]

theorem view_write (hplace : place ∈ hidden) :
    (s.write place key held).view hidden = s.view hidden := by
  funext other
  unfold view
  split
  · rfl
  · rename_i hother
    rw [getElem?_write, if_neg (by rintro rfl; exact hother hplace)]

section Merge

variable {lower entries : Entries Key Setting} {j : Setting} {bound base upper : Nat}

-- A mapping that is written into: it is hidden from those that one sees, and what it holds means
-- some entries.
def Open (s : Store) (hidden : List Nat) (place : Nat) (entries : Entries Key Setting) : Prop :=
  place ∈ hidden ∧ ∃ body, s.bodies[place]? = some body ∧ MeansAll (s.view hidden) body entries

theorem Open.lt (h : s.Open hidden place entries) : place < s.bodies.length := by
  obtain ⟨-, body, hplace, -⟩ := h
  exact (List.getElem?_eq_some_iff.mp hplace).1

-- It stays where it is, and what it holds is seen as before, when others change nothing.
theorem Open.kept (h : s.Open hidden place entries) (hkept : s.Kept t []) :
    t.Open hidden place entries := by
  obtain ⟨hmem, body, hplace, hbody⟩ := h
  exact ⟨hmem, body, hkept place body (by simp) hplace, hbody.mono (hkept.view (by simp))⟩

theorem Open.write (h : s.Open hidden place entries) (key : Key)
    (hheld : Means (s.view hidden) held j) :
    (s.write place key held).Open hidden place (Entries.put key j entries) := by
  obtain ⟨hmem, body, hplace, hbody⟩ := h
  refine ⟨hmem, Entries.put key held body, ?_, ?_⟩
  · rw [getElem?_write, if_pos rfl, hplace]
    rfl
  · rw [view_write hmem]
    exact hbody.put hheld

-- What laying a mapping over another comes to, as far as the bound on the nesting reaches: there
-- is a result, it means what the two mean when they are merged, and nothing has changed.
def Merges (bound : Nat) : Prop :=
  ∀ (s : Store) (hidden : List Nat) (base upper : Nat) (lower entries : Entries Key Setting),
    (∀ place ∈ hidden, place < s.bodies.length) →
    Means (s.view hidden) (.mapping base) (.obj lower) →
    Means (s.view hidden) (.mapping upper) (.obj entries) → (Setting.obj entries).nesting ≤ bound →
    ∃ place t, s.merge bound base upper = some (place, t) ∧ s.Kept t [] ∧
      Means (t.view hidden) (.mapping place) (.obj (Config.merge lower entries))

theorem writeOver_means (key : Key) (hmerges : Merges bound) (hopen : s.Open hidden place lower)
    (hhidden : ∀ other ∈ hidden, other < s.bodies.length)
    (hheld : Means (s.view hidden) held j) (hnesting : j.nesting ≤ bound) :
    ∃ t, writeOver (merge bound) place s (key, held) = some t ∧ s.Kept t [place] ∧
      t.Open hidden place (Entries.put key (mergeValue (Entries.get? key lower) j) lower) := by
  obtain ⟨-, body, hplace, hbody⟩ := id hopen
  have hwrite : mergeValue (Entries.get? key lower) j = j →
      writeOver (merge bound) place s (key, held) = some (s.write place key held) →
      ∃ t, writeOver (merge bound) place s (key, held) = some t ∧ s.Kept t [place] ∧
        t.Open hidden place (Entries.put key (mergeValue (Entries.get? key lower) j) lower) := by
    intro hvalue hresult
    rw [hvalue]
    exact ⟨_, hresult, kept_write s place key held, hopen.write key hheld⟩
  cases hheld with
  | value hj => exact hwrite (mergeValue_of_not_isMapping hj _) (by simp [writeOver, hplace])
  | @mapping new _ entries seen members =>
      obtain ⟨hnone, hno⟩ | ⟨old, j, hold, hj, hmeans⟩ := hbody.get? key
      · exact hwrite (by rw [hno, mergeValue_of_no_mapping (by simp)])
          (by simp [writeOver, hplace, hnone])
      · cases hmeans with
        | value hvalue =>
            refine hwrite ?_ (by simp [writeOver, hplace, hold])
            rw [hj, mergeValue_of_no_mapping]
            rintro entries ⟨⟩
            exact hvalue (Setting.isMapping_obj entries)
        | @mapping old _ before seen' members' =>
            obtain ⟨result, t, hresult, hkept, hmeans⟩ := hmerges s hidden old new before entries
              hhidden (.mapping seen' members') (.mapping seen members) hnesting
            refine ⟨t.write place key (.mapping result), ?_, ?_, ?_⟩
            · simp [writeOver, hplace, hold, hresult]
            · exact fun other body hother hbody =>
                kept_write t place key _ other body hother (hkept other body (by simp) hbody)
            · rw [hj, mergeValue_obj]
              exact (hopen.kept hkept).write key hmeans

theorem foldlM_writeOver (hmerges : Merges bound) {entriesHeld : Entries Key Held}
    (hopen : s.Open hidden place lower) (hhidden : ∀ other ∈ hidden, other < s.bodies.length)
    (hentries : MeansAll (s.view hidden) entriesHeld entries)
    (hnesting : Setting.nestingIn entries ≤ bound) :
    ∃ t, entriesHeld.foldlM (writeOver (merge bound) place) s = some t ∧ s.Kept t [place] ∧
      t.Open hidden place (Config.merge lower entries) := by
  induction entries generalizing s lower entriesHeld with
  | nil =>
      cases hentries
      exact ⟨s, rfl, .refl s _, by rwa [merge_nil]⟩
  | cons entry rest ih =>
      cases hentries with
      | @cons held j _ _ key head tail =>
          simp only [Setting.nestingIn, max_le_iff] at hnesting
          obtain ⟨t, hresult, hkept, hopen'⟩ :=
            writeOver_means key hmerges hopen hhidden head hnesting.1
          have hview := hkept.view (List.cons_subset.mpr ⟨hopen.1, List.nil_subset hidden⟩)
          have hlength := hkept.length_le (by simpa using hopen'.lt)
          obtain ⟨u, hresult', hkept', hopen''⟩ := ih hopen'
            (fun other hother => (hhidden other hother).trans_le hlength) (tail.mono hview)
            hnesting.2
          refine ⟨u, by simp [hresult, hresult'], hkept.trans hkept', ?_⟩
          rwa [merge_cons]

theorem merges (bound : Nat) : Merges bound := by
  induction bound with
  | zero =>
      intro s hidden base upper lower entries _ _ _ hnesting
      simp [Setting.nesting] at hnesting
  | succ bound ih =>
      intro s hidden base upper lower entries hhidden hbase hupper hnesting
      obtain ⟨body, seen, members⟩ := means_mapping_iff.mp hbase
      obtain ⟨entriesHeld, seen', members'⟩ := means_mapping_iff.mp hupper
      -- the copy has the next place, which none of the others can hold
      let start : Store := ⟨s.bodies ++ [body]⟩
      have hstart : s.Kept start [] := kept_append s body
      have hview : ∀ other body, s.view hidden other = some body →
          start.view (s.bodies.length :: hidden) other = some body := by
        intro other body hbody
        obtain ⟨hother, hbody⟩ := getElem?_of_view hbody
        have hlt := (List.getElem?_eq_some_iff.mp hbody).1
        have hne : other ∉ s.bodies.length :: hidden := by
          simpa [hother] using hlt.ne
        rw [view, if_neg hne, hstart other body (by simp) hbody]
      have hopen : start.Open (s.bodies.length :: hidden) s.bodies.length lower :=
        ⟨List.mem_cons_self, body, by simp [start], members.mono hview⟩
      have hhidden' : ∀ other ∈ s.bodies.length :: hidden, other < start.bodies.length := by
        intro other hother
        obtain rfl | hother := List.mem_cons.mp hother
        · exact hopen.lt
        · simpa [start] using Nat.lt_succ_of_lt (hhidden other hother)
      obtain ⟨t, hresult, hkept, -, result, hplaced, hmeans⟩ := foldlM_writeOver ih hopen hhidden'
        (members'.mono hview) (by simpa [Setting.nesting] using hnesting)
      refine ⟨s.bodies.length, t, ?_, ?_, .mapping ?_ (hmeans.mono view_of_view_cons)⟩
      · simp [merge, (getElem?_of_view seen).2, (getElem?_of_view seen').2, hresult, start]
      · intro other body _ hbody
        have hlt := (List.getElem?_eq_some_iff.mp hbody).1
        exact hkept other body (by simpa using hlt.ne) (hstart other body (by simp) hbody)
      · have hne : s.bodies.length ∉ hidden := fun hmem => (hhidden _ hmem).false
        rw [view, if_neg hne, hplaced]

-- What a row of mappings comes to, each laid over what the ones before it gave: every stage
-- means what the values come to, and nothing has changed.
theorem mergeAll_means (s : Store) {uppers : List Nat} {rows : List (Entries Key Setting)}
    (hbase : Means (s.view []) (.mapping base) (.obj lower))
    (hrows : List.Forall₂ (fun place row => Means (s.view []) (.mapping place) (.obj row) ∧
      (Setting.obj row).nesting ≤ bound) uppers rows) :
    ∃ stages t, s.mergeAll bound base uppers = some (stages, t) ∧ s.Kept t [] ∧
      List.Forall₂ (fun place row => Means (t.view []) (.mapping place) (.obj row)) stages
        (Config.mergeAll lower rows) := by
  induction rows generalizing s base lower uppers with
  | nil =>
      cases hrows
      exact ⟨[], s, rfl, .refl s [], .nil⟩
  | cons row rows ih =>
      obtain ⟨upper, uppers, hrow, hrest, rfl⟩ := List.forall₂_cons_right_iff.mp hrows
      obtain ⟨now, t, hresult, hkept, hnow⟩ :=
        merges bound s [] base upper lower row (by simp) hbase hrow.1 hrow.2
      have hview := hkept.view (List.nil_subset [])
      obtain ⟨stages, u, hresult', hkept', hstages⟩ := ih t hnow
        (hrest.imp fun _ _ h => ⟨h.1.mono hview, h.2⟩)
      refine ⟨now :: stages, u, by simp [mergeAll, hresult, hresult'], hkept.trans hkept', ?_⟩
      exact .cons (hnow.mono (hkept'.view (List.nil_subset []))) hstages

end Merge

section Hold

variable {j : Setting} {entries : Entries Key Setting}

theorem holdValue_of_not_isMapping (h : ¬j.IsMapping) (s : Store) :
    holdValue s j = (.value j, s) := by
  cases j with
  | obj entries => exact absurd (Setting.isMapping_obj entries) h
  | _ => rfl

-- A value that is held anew is there, beside everything that was there.
def Holds (j : Setting) : Prop :=
  ∀ s : Store, s.Kept (holdValue s j).2 [] ∧ Means ((holdValue s j).2.view []) (holdValue s j).1 j

theorem holds_of_not_isMapping (h : ¬j.IsMapping) : Holds j := by
  intro s
  rw [holdValue_of_not_isMapping h]
  exact ⟨.refl s [], .value h⟩

theorem holdEntries_means (h : ∀ p ∈ entries, Holds p.2) (s : Store) :
    s.Kept (holdEntries s entries).2 [] ∧
      MeansAll ((holdEntries s entries).2.view []) (holdEntries s entries).1 entries := by
  induction entries generalizing s with
  | nil => exact ⟨.refl s [], .nil⟩
  | cons entry rest ih =>
      obtain ⟨key, j⟩ := entry
      obtain ⟨hj, hrest⟩ := List.forall_mem_cons.mp h
      obtain ⟨hkept, hmeans⟩ := hj s
      obtain ⟨hkept', hmeans'⟩ := ih hrest (holdValue s j).2
      simp only [holdEntries]
      exact ⟨hkept.trans hkept', .cons key (hmeans.mono (hkept'.view (List.nil_subset []))) hmeans'⟩

theorem holds (j : Setting) : Holds j := by
  induction j using Setting.induction with
  | scalar j hj =>
      refine holds_of_not_isMapping ?_
      rintro ⟨entries, rfl⟩
      exact hj
  | arr items _ => exact holds_of_not_isMapping (by rintro ⟨entries, h⟩; cases h)
  | obj entries ih =>
      intro s
      obtain ⟨hkept, hmeans⟩ := holdEntries_means ih s
      have hnew : (holdEntries s entries).2.Kept _ [] :=
        kept_append (holdEntries s entries).2 (holdEntries s entries).1
      simp only [holdValue]
      refine ⟨hkept.trans hnew, .mapping ?_ (hmeans.mono (hnew.view (List.nil_subset [])))⟩
      simp [view]

end Hold

mutual

-- What is read back is what is said.
theorem read?_of_means {bound : Nat} : ∀ {held : Held} {j : Setting}, Means (s.view []) held j →
    j.nesting ≤ bound → s.read? bound held = some j
  | _, j, .value _, _ => by cases bound <;> rfl
  | _, _, .mapping seen members, hbound => by
      cases bound with
      | zero => simp [Setting.nesting] at hbound
      | succ bound =>
        rw [Setting.nesting, Nat.add_le_add_iff_right] at hbound
        simp [read?, (getElem?_of_view seen).2, mapM_of_meansAll members hbound]

theorem mapM_of_meansAll {bound : Nat} : ∀ {body : Entries Key Held}
    {entries : Entries Key Setting},
    MeansAll (s.view []) body entries → Setting.nestingIn entries ≤ bound →
      (body.mapM fun p => (s.read? bound p.2).bind fun j => some (p.1, j)) = some entries
  | _, _, .nil, _ => rfl
  | _, _, .cons key head tail, hbound => by
      simp only [Setting.nestingIn, max_le_iff] at hbound
      simp [read?_of_means head hbound.1, mapM_of_meansAll tail hbound.2]

end

end Dialect.Config.Store

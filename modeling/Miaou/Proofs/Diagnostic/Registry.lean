import Mathlib.Data.List.Dedup
import Mathlib.Data.List.Induction
import Miaou.Proofs.Diagnostic.Wording

/-!
A catalog is an ordered map. Whatever is registered in whatever order, it holds for each code the
definition that was registered last, in the order of the codes, so nothing else of the registrations
can be seen. A table that keeps its entries in no order of its own, and is sorted where it is
listed, lists the same definitions.
-/

namespace Miaou

theorem getLast?_filter_concat {α : Type} (p : α → Bool) (xs : List α) (x : α) :
    ((xs ++ [x]).filter p).getLast? = if p x then some x else (xs.filter p).getLast? := by
  rw [List.getLast?_filter, List.getLast?_filter, List.reverse_concat, List.find?_cons]
  cases p x <;> rfl

namespace Catalog

def Standard.all : List Definition :=
  script ++ grammar ++ values ++ conditions ++ loops ++ arithmetic ++ functions ++ collections ++
    timing ++ system

inductive Stocked : Catalog → List Definition → Prop where
  | new : Stocked empty []
  | standard : Stocked standard Standard.all

/-- The definition that was registered last for a code. -/
def latest? (ds : List Definition) (code : Code) : Option Definition :=
  (ds.filter fun d => d.code = code).getLast?

def Ordered (ds : List Definition) : Prop := ds.Pairwise fun d e => d.code.number < e.code.number

@[simp] theorem latest?_concat (ds : List Definition) (d : Definition) (code : Code) :
    latest? (ds ++ [d]) code = if d.code = code then some d else latest? ds code := by
  rw [latest?, latest?, getLast?_filter_concat]
  simp only [decide_eq_true_eq]

theorem latest?_eq_none {ds : List Definition} {code : Code} :
    latest? ds code = none ↔ code ∉ ds.map (·.code) := by
  rw [latest?, List.getLast?_eq_none_iff, List.filter_eq_nil_iff]
  simp

theorem latest?_code {ds : List Definition} {code : Code} {d : Definition}
    (h : latest? ds code = some d) : d.code = code := by
  have member := List.mem_of_getLast? h
  simpa using (List.mem_filter.mp member).2

/-! One registration -/

theorem mem_insert {d e : Definition} {ds : List Definition} (h : e ∈ insert d ds) :
    e = d ∨ e ∈ ds := by
  induction ds with
  | nil => exact .inl (List.mem_singleton.mp h)
  | cons f fs ih =>
    rw [insert] at h
    split at h
    · exact List.mem_cons.mp h
    split at h
    · exact (List.mem_cons.mp h).imp_right (List.mem_cons_of_mem f)
    · rcases List.mem_cons.mp h with rfl | later
      · exact .inr List.mem_cons_self
      · exact (ih later).imp_right (List.mem_cons_of_mem f)

theorem ordered_insert (d : Definition) {ds : List Definition} (h : Ordered ds) :
    Ordered (insert d ds) := by
  induction ds with
  | nil => exact List.pairwise_singleton _ d
  | cons e es ih =>
    obtain ⟨first, behind⟩ := List.pairwise_cons.mp h
    rw [insert]
    split
    · rename_i before
      refine List.pairwise_cons.mpr ⟨fun f member => ?_, h⟩
      rcases List.mem_cons.mp member with rfl | later
      · exact before
      · exact Nat.lt_trans before (first f later)
    split
    · rename_i same
      exact List.pairwise_cons.mpr ⟨same ▸ first, behind⟩
    · rename_i notBefore differ
      refine List.pairwise_cons.mpr ⟨fun f member => ?_, ih behind⟩
      rcases mem_insert member with rfl | later
      -- Neither before `e` nor in its place, so the new definition is behind it.
      · have distinct : f.code.number ≠ e.code.number := fun same => differ (Code.number_inj same)
        omega
      · exact first f later

theorem find?_insert (d : Definition) (ds : List Definition) (code : Code) :
    (insert d ds).find? (fun e => e.code = code) =
      if d.code = code then some d else ds.find? fun e => e.code = code := by
  induction ds with
  | nil =>
    rw [insert, List.find?_cons, List.find?_nil]
    by_cases here : d.code = code <;> simp [here]
  | cons e es ih =>
    rw [insert]
    split
    · rw [List.find?_cons]
      by_cases here : d.code = code <;> simp [here]
    split
    · rename_i same
      rw [List.find?_cons, List.find?_cons, ← same]
      by_cases here : d.code = code <;> simp [here]
    · rename_i differ
      rw [List.find?_cons, List.find?_cons, ih]
      by_cases here : e.code = code
      · have other : d.code ≠ code := here ▸ differ
        simp [here, other]
      · simp [here]

/-! All registrations -/

theorem ofList_concat (ds : List Definition) (d : Definition) :
    ofList (ds ++ [d]) = (ofList ds).register d := by
  rw [ofList, List.foldl_concat, ofList]

theorem ordered_ofList (ds : List Definition) : Ordered (ofList ds).definitions := by
  induction ds using List.reverseRecOn with
  | nil => exact List.Pairwise.nil
  | append_singleton ds d ih =>
    rw [ofList_concat]
    exact ordered_insert d ih

@[simp] theorem get?_ofList (ds : List Definition) (code : Code) :
    (ofList ds).get? code = latest? ds code := by
  induction ds using List.reverseRecOn with
  | nil => rfl
  | append_singleton ds d ih =>
    rw [ofList_concat, latest?_concat, ← ih]
    exact find?_insert d _ code

@[simp] theorem contains_ofList (ds : List Definition) (code : Code) :
    (ofList ds).contains code = true ↔ code ∈ ds.map (·.code) := by
  rw [contains, get?_ofList, Option.isSome_iff_ne_none, ne_eq, latest?_eq_none, not_not]

theorem Ordered.nodup {ds : List Definition} (h : Ordered ds) : (ds.map (·.code)).Nodup :=
  List.pairwise_map.mpr (h.imp fun less same => less.ne (congrArg Code.number same))

theorem Ordered.mem_iff {ds : List Definition} (h : Ordered ds) {d : Definition} :
    d ∈ ds ↔ ds.find? (fun e => e.code = d.code) = some d := by
  refine ⟨fun member => ?_, List.mem_of_find?_eq_some⟩
  cases found : ds.find? (fun e => e.code = d.code) with
  | none => exact absurd (List.find?_eq_none.mp found d member) (by simp)
  | some e =>
    have same : e.code = d.code := by simpa using List.find?_some found
    have there := List.mem_of_find?_eq_some found
    exact congrArg some (List.inj_on_of_nodup_map h.nodup there member same)

theorem Ordered.unique {ds es : List Definition} (h : Ordered ds) (h' : Ordered es)
    (same : ∀ d, d ∈ ds ↔ d ∈ es) : ds = es := by
  have perm : ds.Perm es :=
    (List.perm_ext_iff_of_nodup (h.nodup.of_map _) (h'.nodup.of_map _)).mpr same
  exact perm.eq_of_pairwise (fun d e _ _ less more => absurd less (Nat.lt_asymm more)) h h'

@[simp] theorem mem_ofList (ds : List Definition) (d : Definition) :
    d ∈ (ofList ds).definitions ↔ latest? ds d.code = some d := by
  rw [(ordered_ofList ds).mem_iff, ← get?_ofList, get?]

theorem mem_codes (ds : List Definition) (code : Code) :
    code ∈ (ofList ds).definitions.map (·.code) ↔ code ∈ ds.map (·.code) := by
  rw [← contains_ofList ds, contains, get?, List.find?_isSome, List.mem_map]
  simp only [decide_eq_true_eq]

@[simp] theorem size_ofList (ds : List Definition) :
    (ofList ds).size = (ds.map (·.code)).dedup.length := by
  have perm : ((ofList ds).definitions.map (·.code)).Perm (ds.map (·.code)).dedup := by
    refine (List.perm_ext_iff_of_nodup (ordered_ofList ds).nodup (List.nodup_dedup _)).mpr ?_
    intro code
    rw [List.mem_dedup, mem_codes]
  rw [size, ← perm.length_eq, List.length_map]

theorem ofList_congr {ds es : List Definition} (same : ∀ code, latest? ds code = latest? es code) :
    ofList ds = ofList es := by
  refine congrArg Catalog.mk ((ordered_ofList ds).unique (ordered_ofList es) fun d => ?_)
  exact (mem_ofList ds d).trans (same d.code ▸ (mem_ofList es d).symm)

structure Holds (c : Catalog) (ds : List Definition) : Prop where
  ordered : Ordered c.definitions
  listed : ∀ d, d ∈ c.definitions ↔ latest? ds d.code = some d
  size : c.size = (ds.map (·.code)).dedup.length
  found : ∀ code, c.get? code = latest? ds code
  contained : ∀ code, c.contains code = true ↔ code ∈ ds.map (·.code)
  unregistered : ∀ code file position text lines,
    c.raise code file position text lines = .error ⟨code⟩ ↔ code ∉ ds.map (·.code)
  raised : ∀ code file position text lines, code ∈ ds.map (·.code) →
    ∃ d, c.raise code file position text lines = .ok d ∧ latest? ds code = some d.definition

theorem raise_none {c : Catalog} {code : Code} (h : c.get? code = none) (file : String)
    (position : Position) (text : String) (lines : Option (List String)) :
    c.raise code file position text lines = .error ⟨code⟩ := by
  rw [raise, h]

theorem raise_some {c : Catalog} {code : Code} {definition : Definition}
    (h : c.get? code = some definition) (file : String) (position : Position) (text : String)
    (lines : Option (List String)) :
    ∃ context, c.raise code file position text lines =
      .ok { Diagnostic.ofDefinition definition file position text with context } := by
  rw [raise, h]
  cases lines with
  | none => exact ⟨_, rfl⟩
  | some lines => exact ⟨_, rfl⟩

theorem holds_ofList (ds : List Definition) : (ofList ds).Holds ds where
  ordered := ordered_ofList ds
  listed := mem_ofList ds
  size := size_ofList ds
  found := get?_ofList ds
  contained := contains_ofList ds
  unregistered code file position text lines := by
    rw [← latest?_eq_none, ← get?_ofList]
    refine ⟨fun refused => ?_, fun none => raise_none none file position text lines⟩
    cases found : (ofList ds).get? code with
    | none => rfl
    | some definition =>
      obtain ⟨_, ok⟩ := raise_some found file position text lines
      cases refused.symm.trans ok
  raised code file position text lines member := by
    obtain ⟨definition, found⟩ :=
      Option.isSome_iff_exists.mp ((contains_ofList ds code).mpr member)
    obtain ⟨_, ok⟩ := raise_some found file position text lines
    exact ⟨_, ok, (get?_ofList ds code).symm.trans found⟩

theorem Stocked.eq_ofList {c : Catalog} {before : List Definition} (h : Stocked c before) :
    c = ofList before := by
  cases h <;> rfl

theorem Stocked.foldl_register {c : Catalog} {before : List Definition} (h : Stocked c before)
    (ds : List Definition) : ds.foldl register c = ofList (before ++ ds) := by
  rw [h.eq_ofList, ofList, ofList, List.foldl_append]

/-! A table without an order of its own -/

/-- The tables that registering can lead to. The definition of a code takes the place of the one
that was filed under it, and the entries may change places with each registration. -/
inductive Filed : List Definition → List (Code × Definition) → Prop where
  | nothing : Filed [] []
  | register {ds : List Definition} {table table' : List (Code × Definition)} {d : Definition}
      (before : Filed ds table)
      (moved : table'.Perm ((d.code, d) :: table.filter fun entry => entry.1 ≠ d.code)) :
      Filed (ds ++ [d]) table'

def precedes (d e : Definition) : Bool := d.code.number ≤ e.code.number

def listing (table : List (Code × Definition)) : List Definition :=
  (table.map Prod.snd).mergeSort precedes

theorem pairwise_listing (table : List (Code × Definition)) :
    (listing table).Pairwise fun d e => precedes d e = true := by
  refine List.pairwise_mergeSort (fun d e f less less' => ?_) (fun d e => ?_) _
  · exact decide_eq_true (Nat.le_trans (of_decide_eq_true less) (of_decide_eq_true less'))
  · rw [Bool.or_eq_true]
    exact (Nat.le_total d.code.number e.code.number).imp decide_eq_true decide_eq_true

theorem exists_filed (ds : List Definition) : ∃ table, Filed ds table := by
  induction ds using List.reverseRecOn with
  | nil => exact ⟨[], .nothing⟩
  | append_singleton ds d ih =>
    obtain ⟨table, before⟩ := ih
    exact ⟨_, .register before (.refl _)⟩

variable {ds : List Definition} {table : List (Code × Definition)}

theorem Filed.nodup (h : Filed ds table) : (table.map Prod.fst).Nodup := by
  induction h with
  | nothing => exact List.nodup_nil
  | register _ moved ih =>
    rw [(moved.map Prod.fst).nodup_iff, List.map_cons, List.nodup_cons]
    refine ⟨fun member => ?_, ih.sublist (List.filter_sublist.map _)⟩
    obtain ⟨entry, kept, same⟩ := List.mem_map.mp member
    exact of_decide_eq_true (List.mem_filter.mp kept).2 same

theorem Filed.mem_iff (h : Filed ds table) (code : Code) (d : Definition) :
    (code, d) ∈ table ↔ latest? ds code = some d := by
  induction h with
  | nothing => exact ⟨nofun, nofun⟩
  | @register ds _ _ e _ moved ih =>
    rw [moved.mem_iff, List.mem_cons, List.mem_filter, ih, latest?_concat, Prod.mk.injEq]
    by_cases same : e.code = code
    · simp [same, eq_comm]
    · simp [same, Ne.symm same]

theorem Filed.perm (h : Filed ds table) : (table.map Prod.snd).Perm (ofList ds).definitions := by
  -- Each definition is filed under its own code, so no definition is filed twice.
  have codes : (table.map Prod.snd).map (·.code) = table.map Prod.fst := by
    rw [List.map_map]
    refine List.map_congr_left fun entry member => ?_
    exact latest?_code ((h.mem_iff entry.1 entry.2).mp member)
  have nodup : (table.map Prod.snd).Nodup := List.Nodup.of_map (·.code) (codes ▸ h.nodup)
  refine (List.perm_ext_iff_of_nodup nodup ((ordered_ofList ds).nodup.of_map _)).mpr fun d => ?_
  rw [mem_ofList, ← h.mem_iff, List.mem_map]
  refine ⟨?_, fun member => ⟨_, member, rfl⟩⟩
  rintro ⟨entry, member, rfl⟩
  have own := latest?_code ((h.mem_iff entry.1 entry.2).mp member)
  rwa [own]

theorem Filed.listing_eq (h : Filed ds table) : listing table = (ofList ds).definitions := by
  have perm := (List.mergeSort_perm (table.map Prod.snd) precedes).trans h.perm
  have ordered := (ordered_ofList ds).imp fun less => decide_eq_true (Nat.le_of_lt less)
  refine perm.eq_of_pairwise (fun d e here there less more => ?_) (pairwise_listing table) ordered
  have same : d.code = e.code := Code.number_inj
    (Nat.le_antisymm (of_decide_eq_true less) (of_decide_eq_true more))
  exact List.inj_on_of_nodup_map (ordered_ofList ds).nodup (perm.mem_iff.mp here) there same

theorem Filed.lookup_eq (h : Filed ds table) (code : Code) :
    table.lookup code = latest? ds code := by
  cases found : table.lookup code with
  | some d =>
    obtain ⟨_, _, rfl, -⟩ := List.lookup_eq_some_iff.mp found
    exact ((h.mem_iff code d).mp (by simp)).symm
  | none =>
    refine (Option.eq_none_iff_forall_ne_some.mpr fun d latest => ?_).symm
    have other := List.lookup_eq_none_iff.mp found _ ((h.mem_iff code d).mpr latest)
    simp at other

theorem Filed.length_eq (h : Filed ds table) : table.length = (ofList ds).size := by
  rw [size, ← h.perm.length_eq, List.length_map]

/-- After any registrations a catalog holds for each code the definition that was registered last,
in the order of the codes. Registrations with the same last definitions lead to the same listing,
and a table that keeps its entries in any order agrees with the catalog once it is sorted. -/
theorem registered_latest {c : Catalog} {before : List Definition} (start : Stocked c before)
    (ds : List Definition) :
    (ds.foldl register c).Holds (before ++ ds) ∧
      (∀ c' before', Stocked c' before' → ∀ es,
        (∀ code, latest? (before' ++ es) code = latest? (before ++ ds) code) →
          (es.foldl register c').definitions = (ds.foldl register c).definitions) ∧
      (∃ table, Filed (before ++ ds) table) ∧ ∀ table, Filed (before ++ ds) table →
        listing table = (ds.foldl register c).definitions ∧
          table.length = (ds.foldl register c).size ∧
          ∀ code, table.lookup code = (ds.foldl register c).get? code := by
  rw [start.foldl_register]
  refine ⟨holds_ofList _, fun c' before' start' es same => ?_, exists_filed _,
    fun table filed => ?_⟩
  · rw [start'.foldl_register, ofList_congr same]
  · exact ⟨filed.listing_eq, filed.length_eq, fun code =>
      (filed.lookup_eq code).trans (get?_ofList _ code).symm⟩

theorem registered_latest_replaced :
    ∃ first second : Definition, first.code = .emptyFile ∧ second.code = .emptyFile ∧
      first ≠ second ∧ ∃ c : Catalog, c = (standard.register first).register second ∧
        c.size = 33 ∧ c.get? .emptyFile = some second ∧
        c.definitions = (standard.register second).definitions ∧
        ∃ d, c.raise .emptyFile "chat.miaou" .start "" none = .ok d ∧ d.definition = second := by
  let first : Definition := ⟨.emptyFile, "EmptyFile", .low, "file is empty", "", "", "", ""⟩
  let second : Definition := { first with tech := "nothing here" }
  obtain ⟨holds, others, -⟩ := registered_latest .standard [first, second]
  have again : ∀ code,
      latest? (Standard.all ++ [second]) code = latest? (Standard.all ++ [first, second]) code := by
    intro code
    rw [List.append_cons Standard.all first, latest?_concat, latest?_concat, latest?_concat]
    by_cases same : second.code = code
    · rw [if_pos same, if_pos same]
    · rw [if_neg same, if_neg same, if_neg fun same' => same same']
  have latest : latest? (Standard.all ++ [first, second]) .emptyFile = some second := by
    rw [← again, latest?_concat, if_pos rfl]
  have member : Code.emptyFile ∈ (Standard.all ++ [first, second]).map (·.code) := by
    simp [first, second]
  obtain ⟨d, raised, found⟩ := holds.raised .emptyFile "chat.miaou" .start "" none member
  refine ⟨first, second, rfl, rfl, by decide, _, rfl, holds.size.trans (by decide),
    (holds.found .emptyFile).trans latest, ?_, d, raised, ?_⟩
  · exact (others _ _ .standard [second] again).symm
  · exact Option.some.inj (found.symm.trans latest)

end Catalog

end Miaou

import ChatDispatch.Redaction.Config
import Mathlib.Data.List.Forall2

/-!
What can be seen of a config tree that has been redacted. A tree is known by its shape, in which all
keys and the lengths of all arrays are kept, and by its leaves in order. Redaction keeps the shape
and shows each leaf for itself, as it is or as the mask of a secret. So trees that differ in nothing
but secrets with the same mask cannot be told apart once they are redacted.
-/

namespace ChatDispatch

namespace Json

inductive Step where
  | item (index : Nat)
  | entry (key : String)
  deriving DecidableEq, Repr

def Step.key? : Step → Option String
  | item _ => none
  | entry key => some key

/-- A value that holds no others, and the steps that lead to it, the last one first. -/
structure Leaf where
  path : List Step
  value : Json

/-- The nearest key above a leaf, through arrays of any depth. -/
def Leaf.key? (leaf : Leaf) : Option String := leaf.path.findSome? Step.key?

mutual

/-- The tree with nothing told of its leaves. -/
def shape : Json → Json
  | .array items => .array (itemShapes items)
  | .object entries => .object (entryShapes entries)
  | _ => .null

def itemShapes : List Json → List Json
  | [] => []
  | item :: rest => item.shape :: itemShapes rest

def entryShapes : List (String × Json) → List (String × Json)
  | [] => []
  | (key, value) :: rest => (key, value.shape) :: entryShapes rest

end

mutual

def leavesAt (path : List Step) : Json → List Leaf
  | .array items => itemLeavesAt path 0 items
  | .object entries => entryLeavesAt path entries
  | value => [⟨path, value⟩]

def itemLeavesAt (path : List Step) (index : Nat) : List Json → List Leaf
  | [] => []
  | item :: rest => leavesAt (.item index :: path) item ++ itemLeavesAt path (index + 1) rest

def entryLeavesAt (path : List Step) : List (String × Json) → List Leaf
  | [] => []
  | (key, value) :: rest => leavesAt (.entry key :: path) value ++ entryLeavesAt path rest

end

def leaves (tree : Json) : List Leaf := leavesAt [] tree

/-- A tree with the shape of a leaf is one, and is known by it. -/
theorem eq_of_leaf {path : List Step} {before after : List Leaf} {tree other : Json}
    (hshape : other.shape = .null)
    (hleaves : (⟨path, tree⟩ : Leaf) :: before = leavesAt path other ++ after) :
    tree = other ∧ before = after := by
  have hother : leavesAt path other = [⟨path, other⟩] := by
    cases other with
    | array items => cases hshape
    | object entries => cases hshape
    | _ => rfl
  rw [hother, List.singleton_append, List.cons.injEq, Leaf.mk.injEq] at hleaves
  exact ⟨hleaves.1.2, hleaves.2⟩

mutual

/-- A tree is known by its shape and its leaves; what stands behind the leaves is told apart from
them by the shape. -/
theorem eq_of_shape_of_leaves {path : List Step} {before after : List Leaf} :
    ∀ {tree other : Json}, tree.shape = other.shape →
      leavesAt path tree ++ before = leavesAt path other ++ after → tree = other ∧ before = after
  | .array items, other, hshape, hleaves => by
    cases other with
    | array others =>
      obtain ⟨rfl, hrest⟩ := eq_of_itemShapes_of_leaves (Json.array.inj hshape) hleaves
      exact ⟨rfl, hrest⟩
    | _ => cases hshape
  | .object entries, other, hshape, hleaves => by
    cases other with
    | object others =>
      obtain ⟨rfl, hrest⟩ := eq_of_entryShapes_of_leaves (Json.object.inj hshape) hleaves
      exact ⟨rfl, hrest⟩
    | _ => cases hshape
  | .null, _, hshape, hleaves | .bool _, _, hshape, hleaves | .int _, _, hshape, hleaves
  | .real _, _, hshape, hleaves | .text _, _, hshape, hleaves => eq_of_leaf hshape.symm hleaves

theorem eq_of_itemShapes_of_leaves {path : List Step} {before after : List Leaf} {index : Nat} :
    ∀ {items others : List Json}, itemShapes items = itemShapes others →
      itemLeavesAt path index items ++ before = itemLeavesAt path index others ++ after →
        items = others ∧ before = after
  | [], [], _, hleaves => ⟨rfl, hleaves⟩
  | [], other :: others, hshape, _ => by cases hshape
  | item :: items, [], hshape, _ => by cases hshape
  | item :: items, other :: others, hshape, hleaves => by
    obtain ⟨hitem, hitems⟩ := List.cons.inj hshape
    rw [itemLeavesAt, itemLeavesAt, List.append_assoc, List.append_assoc] at hleaves
    obtain ⟨rfl, hrest⟩ := eq_of_shape_of_leaves hitem hleaves
    obtain ⟨rfl, hbehind⟩ := eq_of_itemShapes_of_leaves hitems hrest
    exact ⟨rfl, hbehind⟩

theorem eq_of_entryShapes_of_leaves {path : List Step} {before after : List Leaf} :
    ∀ {entries others : List (String × Json)}, entryShapes entries = entryShapes others →
      entryLeavesAt path entries ++ before = entryLeavesAt path others ++ after →
        entries = others ∧ before = after
  | [], [], _, hleaves => ⟨rfl, hleaves⟩
  | [], (_, _) :: others, hshape, _ => by cases hshape
  | (_, _) :: entries, [], hshape, _ => by cases hshape
  | (key, value) :: entries, (other, content) :: others, hshape, hleaves => by
    obtain ⟨hentry, hentries⟩ := List.cons.inj hshape
    obtain ⟨rfl, hvalue⟩ := Prod.mk.inj hentry
    rw [entryLeavesAt, entryLeavesAt, List.append_assoc, List.append_assoc] at hleaves
    obtain ⟨rfl, hrest⟩ := eq_of_shape_of_leaves hvalue hleaves
    obtain ⟨rfl, hbehind⟩ := eq_of_entryShapes_of_leaves hentries hrest
    exact ⟨rfl, hbehind⟩

end

end Json

namespace Redaction

open Json (Leaf Step)

def sensitiveKeys : List String :=
  ["accessToken", "access_token", "token", "apiKey", "api_key", "secret", "password"]

/-- The key is one of these names, in whatever mixture of ASCII capitals and small letters. -/
def IsSensitive (key : String) : Prop :=
  ∃ name ∈ sensitiveKeys, key.toList.map Char.toLower = name.toList.map Char.toLower

/-- The leaf is a text that is not empty, and the nearest key above it is one of secrets. -/
structure IsSecret (leaf : Leaf) (secret : String) : Prop where
  key : ∃ key, leaf.key? = some key ∧ IsSensitive key
  value : leaf.value = .text secret
  ne_empty : secret ≠ ""

/-- What is shown of a leaf. A secret of more than eight characters shows its first four. -/
inductive ShownAs (leaf : Leaf) : Json → Prop
  | plain (h : ∀ secret, ¬ IsSecret leaf secret) : ShownAs leaf leaf.value
  | whole {secret : String} (h : IsSecret leaf secret) (hshort : secret.length ≤ 8) :
      ShownAs leaf (.text "***")
  | hinted {secret : String} (h : IsSecret leaf secret) (hlong : 8 < secret.length) :
      ShownAs leaf (.text (String.ofList (secret.toList.take 4) ++ "***"))

structure Shows (leaf shown : Leaf) : Prop where
  path : shown.path = leaf.path
  value : ShownAs leaf shown.value

/-- The secrets are both short, or both long with the same first four characters. -/
def SameMask (secret other : String) : Prop :=
  (secret.length ≤ 8 ∧ other.length ≤ 8) ∨
    (8 < secret.length ∧ 8 < other.length ∧ secret.toList.take 4 = other.toList.take 4)

/-- Leaves in the same place that are equal, or that are secrets with the same mask. -/
inductive Likewise : Leaf → Leaf → Prop
  | same (leaf : Leaf) : Likewise leaf leaf
  | masked {leaf other : Leaf} {secret secret' : String} (hpath : leaf.path = other.path)
      (h : IsSecret leaf secret) (h' : IsSecret other secret') (hmask : SameMask secret secret') :
      Likewise leaf other

theorem isSecretKey_iff {key : String} : isSecretKey key = true ↔ IsSensitive key := by
  have hkeys : secretKeys =
      sensitiveKeys.map fun name => String.ofList (name.toList.map Char.toLower) := by decide
  rw [isSecretKey, hkeys, List.contains_iff_mem, List.mem_map, IsSensitive]
  constructor
  · rintro ⟨name, hname, heq⟩
    refine ⟨name, hname, ?_⟩
    simpa using (congrArg String.toList heq).symm
  · rintro ⟨name, hname, heq⟩
    exact ⟨name, hname, by rw [heq]⟩

def isSecretAt (path : List Step) : Bool := (path.findSome? Step.key?).any isSecretKey

theorem isSecretAt_item (index : Nat) (path : List Step) :
    isSecretAt (.item index :: path) = isSecretAt path := rfl

theorem isSecretAt_entry (key : String) (path : List Step) :
    isSecretAt (.entry key :: path) = isSecretKey key := rfl

theorem isSecretAt_iff {leaf : Leaf} :
    isSecretAt leaf.path = true ↔ ∃ key, leaf.key? = some key ∧ IsSensitive key := by
  simp only [isSecretAt, Option.any_eq_true, isSecretKey_iff, Leaf.key?]

theorem maskText_of_short {secret : String} (hne : secret ≠ "") (hshort : secret.length ≤ 8) :
    String.ofList (maskText secret.toList) = "***" := by
  have hnil : secret.toList.isEmpty = false := by simpa using hne
  have hlength : ¬ hiddenLength < secret.toList.length := by
    rw [String.length_toList]
    exact Nat.not_lt.mpr hshort
  rw [maskText, hnil, if_neg Bool.false_ne_true, if_neg hlength, String.ofList_toList]

theorem maskText_of_long {secret : String} (hlong : 8 < secret.length) :
    String.ofList (maskText secret.toList) = String.ofList (secret.toList.take 4) ++ "***" := by
  have hlength : hiddenLength < secret.toList.length := by
    rw [String.length_toList]
    exact hlong
  have hnil : secret.toList.isEmpty = false := by
    rw [List.isEmpty_eq_false_iff_exists_mem, ← List.length_pos_iff_exists_mem]
    omega
  rw [maskText, hnil, if_neg Bool.false_ne_true, if_pos hlength, String.ofList_append,
    String.ofList_toList]
  rfl

/-- A text is shown as the path to it demands. -/
theorem shown_text (path : List Step) (text : String) :
    Shows ⟨path, .text text⟩ ⟨path, maskUnder (isSecretAt path) (.text text)⟩ := by
  refine ⟨rfl, ?_⟩
  by_cases hsecret : isSecretAt path = true
  · rw [maskUnder, if_pos hsecret]
    by_cases hempty : text = ""
    · subst hempty
      exact .plain fun secret h => h.ne_empty (Json.text.inj h.value).symm
    · have h : IsSecret ⟨path, .text text⟩ text := ⟨isSecretAt_iff.mp hsecret, rfl, hempty⟩
      by_cases hlong : 8 < text.length
      · rw [maskText_of_long hlong]
        exact .hinted h hlong
      · rw [maskText_of_short hempty (Nat.not_lt.mp hlong)]
        exact .whole h (Nat.not_lt.mp hlong)
  · rw [maskUnder, if_neg hsecret]
    exact .plain fun secret h => hsecret (isSecretAt_iff.mpr h.key)

/-- A leaf that is not a text is shown as it is. -/
theorem shown_other {leaf : Leaf} (h : ∀ text, leaf.value ≠ .text text) : Shows leaf leaf :=
  ⟨rfl, .plain fun secret hsecret => h secret hsecret.value⟩

mutual

theorem shape_maskUnder (isSecret : Bool) : ∀ tree : Json,
    (maskUnder isSecret tree).shape = tree.shape
  | .array items => by rw [maskUnder, Json.shape, Json.shape, itemShapes_maskItems]
  | .object entries => by rw [maskUnder, Json.shape, Json.shape, entryShapes_maskEntries]
  | .text s => by
    rw [maskUnder]
    split <;> rfl
  | .null | .bool _ | .int _ | .real _ => rfl

theorem itemShapes_maskItems (isSecret : Bool) : ∀ items : List Json,
    Json.itemShapes (maskItems isSecret items) = Json.itemShapes items
  | [] => rfl
  | item :: rest => by
    rw [maskItems, Json.itemShapes, Json.itemShapes, shape_maskUnder, itemShapes_maskItems]

theorem entryShapes_maskEntries : ∀ entries : List (String × Json),
    Json.entryShapes (maskEntries entries) = Json.entryShapes entries
  | [] => rfl
  | (key, value) :: rest => by
    rw [maskEntries, Json.entryShapes, Json.entryShapes, shape_maskUnder, entryShapes_maskEntries]

end

mutual

/-- Each leaf is shown in its place. -/
theorem leavesAt_maskUnder (path : List Step) : ∀ tree : Json,
    List.Forall₂ Shows (Json.leavesAt path tree)
      (Json.leavesAt path (maskUnder (isSecretAt path) tree))
  | .array items => by
    rw [maskUnder, Json.leavesAt, Json.leavesAt]
    exact itemLeavesAt_maskItems path 0 items
  | .object entries => by
    rw [maskUnder, Json.leavesAt, Json.leavesAt]
    exact entryLeavesAt_maskEntries path entries
  | .text s => by
    have hshown : Json.leavesAt path (maskUnder (isSecretAt path) (.text s)) =
        [⟨path, maskUnder (isSecretAt path) (.text s)⟩] := by
      rw [maskUnder]
      split <;> rfl
    rw [hshown]
    exact .cons (shown_text path s) .nil
  | .null | .bool _ | .int _ | .real _ => .cons (shown_other nofun) .nil

theorem itemLeavesAt_maskItems (path : List Step) (index : Nat) : ∀ items : List Json,
    List.Forall₂ Shows (Json.itemLeavesAt path index items)
      (Json.itemLeavesAt path index (maskItems (isSecretAt path) items))
  | [] => .nil
  | item :: rest => by
    have hitem := leavesAt_maskUnder (.item index :: path) item
    rw [isSecretAt_item] at hitem
    rw [maskItems, Json.itemLeavesAt, Json.itemLeavesAt]
    exact List.rel_append hitem (itemLeavesAt_maskItems path (index + 1) rest)

theorem entryLeavesAt_maskEntries (path : List Step) : ∀ entries : List (String × Json),
    List.Forall₂ Shows (Json.entryLeavesAt path entries)
      (Json.entryLeavesAt path (maskEntries entries))
  | [] => .nil
  | (key, value) :: rest => by
    have hvalue := leavesAt_maskUnder (.entry key :: path) value
    rw [isSecretAt_entry] at hvalue
    rw [maskEntries, Json.entryLeavesAt, Json.entryLeavesAt]
    exact List.rel_append hvalue (entryLeavesAt_maskEntries path rest)

end

theorem IsSecret.unique {leaf : Leaf} {secret other : String} (h : IsSecret leaf secret)
    (h' : IsSecret leaf other) : secret = other :=
  Json.text.inj (h.value.symm.trans h'.value)

/-- What is shown of a secret is its mask. -/
theorem ShownAs.cases_of_isSecret {leaf : Leaf} {secret : String} {shown : Json}
    (h : IsSecret leaf secret) (hshown : ShownAs leaf shown) :
    (secret.length ≤ 8 ∧ shown = .text "***") ∨
      (8 < secret.length ∧ shown = .text (String.ofList (secret.toList.take 4) ++ "***")) := by
  cases hshown with
  | plain hplain => exact absurd h (hplain secret)
  | whole hother hshort =>
    obtain rfl := h.unique hother
    exact .inl ⟨hshort, rfl⟩
  | hinted hother hlong =>
    obtain rfl := h.unique hother
    exact .inr ⟨hlong, rfl⟩

theorem ShownAs.unique {leaf : Leaf} {shown shown' : Json} (h : ShownAs leaf shown)
    (h' : ShownAs leaf shown') : shown = shown' := by
  by_cases hsecret : ∃ secret, IsSecret leaf secret
  · obtain ⟨secret, hsecret⟩ := hsecret
    rcases h.cases_of_isSecret hsecret with ⟨hlength, rfl⟩ | ⟨hlength, rfl⟩ <;>
      rcases h'.cases_of_isSecret hsecret with ⟨hlength', rfl⟩ | ⟨hlength', rfl⟩
    · rfl
    · omega
    · omega
    · rfl
  · have hplain : ∀ {value : Json}, ShownAs leaf value → value = leaf.value := by
      intro value hvalue
      cases hvalue with
      | plain => rfl
      | whole hother => exact absurd ⟨_, hother⟩ hsecret
      | hinted hother => exact absurd ⟨_, hother⟩ hsecret
    rw [hplain h, hplain h']

/-- Leaves that are alike are shown as the same. -/
theorem Likewise.shows_eq {leaf other shown shown' : Leaf} (halike : Likewise leaf other)
    (h : Shows leaf shown) (h' : Shows other shown') : shown = shown' := by
  have hvalue : shown.value = shown'.value := by
    cases halike with
    | same => exact h.value.unique h'.value
    | masked hpath hsecret hsecret' hmask =>
      rcases h.value.cases_of_isSecret hsecret with ⟨hlength, hshown⟩ | ⟨hlength, hshown⟩ <;>
        rcases h'.value.cases_of_isSecret hsecret' with ⟨hlength', hshown'⟩ | ⟨hlength', hshown'⟩
      · rw [hshown, hshown']
      · unfold SameMask at hmask
        omega
      · unfold SameMask at hmask
        omega
      · rcases hmask with ⟨hshort, _⟩ | ⟨_, _, hhint⟩
        · omega
        · rw [hshown, hshown', hhint]
  have hpath : leaf.path = other.path := by
    cases halike with
    | same => rfl
    | masked hpath => exact hpath
  obtain ⟨path, value⟩ := shown
  obtain ⟨path', value'⟩ := shown'
  exact (Leaf.mk.injEq ..).mpr ⟨h.path.trans (hpath.trans h'.path.symm), hvalue⟩

theorem eq_of_likewise {leaves others shown shown' : List Leaf}
    (halike : List.Forall₂ Likewise leaves others) (h : List.Forall₂ Shows leaves shown)
    (h' : List.Forall₂ Shows others shown') : shown = shown' := by
  induction halike generalizing shown shown' with
  | nil =>
    cases h
    cases h'
    rfl
  | cons hhead htail ih =>
    cases h with
    | cons hshown hrest =>
      cases h' with
      | cons hshown' hrest' => rw [hhead.shows_eq hshown hshown', ih hrest hrest']

/-- Redaction keeps the shape of a tree, with its keys and the lengths of its arrays, and each of
its leaves but the secrets, of which their masks are shown. Trees that are equal up to secrets with
the same mask are the same once they are redacted. -/
theorem redactTree_shows_masks_only :
    (∀ tree : Json, (redactTree tree).shape = tree.shape ∧
      List.Forall₂ Shows tree.leaves (redactTree tree).leaves) ∧
    ∀ tree other : Json, tree.shape = other.shape →
      List.Forall₂ Likewise tree.leaves other.leaves → redactTree tree = redactTree other := by
  have hshape : ∀ tree : Json, (redactTree tree).shape = tree.shape := shape_maskUnder false
  have hleaves : ∀ tree : Json, List.Forall₂ Shows tree.leaves (redactTree tree).leaves :=
    leavesAt_maskUnder []
  refine ⟨fun tree => ⟨hshape tree, hleaves tree⟩, fun tree other hsame halike => ?_⟩
  have hshapes : (redactTree tree).shape = (redactTree other).shape := by
    rw [hshape, hshape, hsame]
  have hshown : (redactTree tree).leaves = (redactTree other).leaves :=
    eq_of_likewise halike (hleaves tree) (hleaves other)
  exact (Json.eq_of_shape_of_leaves hshapes (congrArg (· ++ []) hshown)).1

def tokenTree (token short : String) : Json :=
  .object [("Access_TOKEN", .array [.array [.text token, .int 7], .text short]),
    ("secret", .object [("name", .text "vk1.a.")])]

/-- Two long tokens with the same start, and two short ones of different lengths. -/
theorem redactTree_tokenTree :
    (tokenTree "vk1.a.0123" "abc").shape = (tokenTree "vk1.secretword" "p").shape ∧
      List.Forall₂ Likewise (tokenTree "vk1.a.0123" "abc").leaves
        (tokenTree "vk1.secretword" "p").leaves ∧
      redactTree (tokenTree "vk1.a.0123" "abc") = redactTree (tokenTree "vk1.secretword" "p") := by
  have hkey : IsSensitive "Access_TOKEN" := ⟨"access_token", by decide, by decide⟩
  have hshape : (tokenTree "vk1.a.0123" "abc").shape = (tokenTree "vk1.secretword" "p").shape := rfl
  have hlong : SameMask "vk1.a.0123" "vk1.secretword" :=
    .inr ⟨by decide, by decide, by decide⟩
  have hshort : SameMask "abc" "p" := .inl ⟨by decide, by decide⟩
  have hleaves : List.Forall₂ Likewise (tokenTree "vk1.a.0123" "abc").leaves
      (tokenTree "vk1.secretword" "p").leaves :=
    .cons (.masked rfl ⟨⟨_, rfl, hkey⟩, rfl, by decide⟩ ⟨⟨_, rfl, hkey⟩, rfl, by decide⟩ hlong) <|
    .cons (.same _) <|
    .cons (.masked rfl ⟨⟨_, rfl, hkey⟩, rfl, by decide⟩ ⟨⟨_, rfl, hkey⟩, rfl, by decide⟩ hshort) <|
    .cons (.same _) .nil
  exact ⟨hshape, hleaves, redactTree_shows_masks_only.2 _ _ hshape hleaves⟩

end Redaction

end ChatDispatch

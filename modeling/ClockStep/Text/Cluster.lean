import ClockStep.Text.Cluster.Ranges

/-!
# Clusters, and backspaces

A **cluster** is what a reader takes for one character: a letter with its accents, a Hangul
syllable, a flag, a family of pictographs. A text is cut into its clusters by the rules of Unicode's
extended grapheme clusters. Whether a character joins the cluster before it hangs on its own kind
and on what the text before it ends in, which `Context` keeps.

A backspace in a text takes away the cluster before it. What is kept of a cluster for that is its
number of bytes, in a single byte.

## Main results

* `ofCode_ascii`: in ASCII there are only controls and characters that stand by themselves.
* `flatten_clusters`: nothing is lost in cutting.
* `clusters_eq_singletons`: characters that stand by themselves are a cluster each.
* `applyBackspaces_eq_self`: a text without backspaces stays as it is.
-/

/-! ### Kinds of characters -/

namespace ClockStep.Text.Cluster

/-- The part that a character takes in forming clusters. -/
inductive Kind where
  | carriageReturn
  | lineFeed
  /-- Any other control: it stays alone. -/
  | control
  /-- Belongs to the character after it. -/
  | prepend
  /-- Belongs to the character before it and takes room of its own. -/
  | spacing
  /-- Belongs to the character before it. -/
  | extend
  /-- Belongs to the character before it and joins two consonants. -/
  | linker
  /-- Belongs to the character before it and keeps consonants apart. -/
  | nonJoiner
  /-- Belongs to the character before it and joins two pictographs. -/
  | joiner
  /-- A consonant that a linker can join. -/
  | consonant
  | pictograph
  /-- One of the two letters of a flag. -/
  | regional
  /-- The leading letter of a Hangul syllable. -/
  | lead
  /-- The vowel of a Hangul syllable. -/
  | vowel
  /-- The trailing letter of a Hangul syllable. -/
  | tail
  /-- A Hangul syllable that ends in its vowel. -/
  | openSyllable
  /-- A Hangul syllable with a trailing letter. -/
  | closedSyllable
  | other
deriving Repr, DecidableEq

namespace Kind

/-- The kind of a code point. -/
def ofCode (code : Nat) : Kind :=
  if code < 0x80 then
    if code = 0x0D then .carriageReturn
    else if code = 0x0A then .lineFeed
    else if code < 0x20 || code = 0x7F then .control
    else .other
  else if code = 0x200C then .nonJoiner
  else if code = 0x200D then .joiner
  else if 0x1F1E6 ≤ code && code ≤ 0x1F1FF then .regional
  else if 0xAC00 ≤ code && code ≤ 0xD7A3 then
    if (code - 0xAC00) % 28 = 0 then .openSyllable else .closedSyllable
  else if covers controlRanges code then .control
  else if covers prependRanges code then .prepend
  else if covers spacingRanges code then .spacing
  else if covers extendRanges code then .extend
  else if covers linkerRanges code then .linker
  else if covers consonantRanges code then .consonant
  else if covers pictographRanges code then .pictograph
  else if covers leadRanges code then .lead
  else if covers vowelRanges code then .vowel
  else if covers tailRanges code then .tail
  else .other

/-- The kind of a character. -/
def ofChar (c : Char) : Kind := ofCode c.toNat

/-- A printable character of ASCII stands by itself. -/
theorem ofCode_ascii {code : Nat} (low : 0x20 ≤ code) (high : code < 0x7F) :
    ofCode code = .other := by
  have hcr : code ≠ 0x0D := by omega
  have hlf : code ≠ 0x0A := by omega
  have hlow : ¬code < 0x20 := by omega
  have hdel : code ≠ 0x7F := by omega
  have hascii : code < 0x80 := by omega
  simp [ofCode, hcr, hlf, hlow, hdel, hascii]

/-- Whether the kind belongs to the character before it without taking room. -/
def isExtending : Kind → Bool
  | .extend | .linker | .nonJoiner => true
  | _ => false

/-- Whether the kind ends every cluster before it and begins none behind it. -/
def isControl : Kind → Bool
  | .carriageReturn | .lineFeed | .control => true
  | _ => false

end Kind

end ClockStep.Text.Cluster

/-! ### Cutting -/

namespace ClockStep.Text.Cluster

/-- How far a text ends in pictographs that are to be joined. -/
inductive PictographRun where
  | none
  /-- It ends in a pictograph and what extends it. -/
  | begun
  /-- It ends in those and a joiner: the next pictograph belongs to them. -/
  | joined
deriving Repr, DecidableEq

/-- How far a text ends in consonants that are to be joined. -/
inductive ConsonantRun where
  | none
  /-- It ends in a consonant and what extends it, with no linker among it. -/
  | begun
  /-- It ends in a consonant and what extends it, with a linker: the next consonant belongs to
  them. -/
  | linked
deriving Repr, DecidableEq

/-- What a text ends in, as far as it decides about the character behind it. -/
structure Context where
  /-- The kind of the last character. A text that is still empty is as good as a control. -/
  last : Kind := .control
  /-- Whether the number of letters of flags at the end is odd. -/
  oddRegional : Bool := false
  pictographs : PictographRun := .none
  consonants : ConsonantRun := .none
deriving Repr, DecidableEq

namespace Context

/-- The pictographs at the end, one character later. -/
def nextPictographs (context : Context) (kind : Kind) : PictographRun :=
  match kind, context.pictographs with
  | .pictograph, _ => .begun
  | .joiner, .begun => .joined
  | kind, .begun => if kind.isExtending then .begun else .none
  | _, _ => .none

/-- The consonants at the end, one character later. -/
def nextConsonants (context : Context) (kind : Kind) : ConsonantRun :=
  match kind, context.consonants with
  | .consonant, _ => .begun
  | .linker, .begun => .linked
  | .linker, run | .extend, run | .joiner, run => run
  | _, _ => .none

/-- What the text ends in, one character later. -/
def push (context : Context) (kind : Kind) : Context :=
  { last := kind
    oddRegional := kind == .regional && !context.oddRegional
    pictographs := context.nextPictographs kind
    consonants := context.nextConsonants kind }

/-- Whether a character of the given kind joins the cluster before it. -/
def joins (context : Context) (kind : Kind) : Bool :=
  match context.last, kind with
  | .carriageReturn, .lineFeed => true
  | last, kind =>
    if last.isControl || kind.isControl then false
    else match last, kind with
      | .lead, .lead | .lead, .vowel | .lead, .openSyllable | .lead, .closedSyllable => true
      | .openSyllable, .vowel | .openSyllable, .tail | .vowel, .vowel | .vowel, .tail => true
      | .closedSyllable, .tail | .tail, .tail => true
      | _, .extend | _, .linker | _, .nonJoiner | _, .joiner | _, .spacing => true
      | .prepend, _ => true
      | _, .consonant => context.consonants == .linked
      | _, .pictograph => context.pictographs == .joined
      | _, .regional => context.oddRegional
      | _, _ => false

end Context

/-- A character put in front of clusters: into the first of them, or as one of its own. -/
def attach (c : Char) (joined : Bool) : List (List Char) → List (List Char)
  | cluster :: clusters =>
    if joined then (c :: cluster) :: clusters else [c] :: cluster :: clusters
  | [] => [[c]]

/-- The clusters of a text that comes behind a context, its first character in a new one. -/
def clustersFrom (context : Context) : List Char → List (List Char)
  | [] => []
  | c :: rest =>
    let context := context.push (.ofChar c)
    attach c (rest.head?.any fun d => context.joins (.ofChar d)) (clustersFrom context rest)

end Cluster

/-- The clusters of a text. -/
def clusters (text : List Char) : List (List Char) := Cluster.clustersFrom {} text

namespace Cluster

/-- Attaching adds the character, whether it joins or not. -/
theorem flatten_attach (c : Char) (joined : Bool) (clusters : List (List Char)) :
    (attach c joined clusters).flatten = c :: clusters.flatten := by
  cases clusters with
  | nil => rfl
  | cons cluster clusters => cases joined <;> simp [attach]

/-- Without joining, attaching adds a cluster of its own. -/
theorem attach_false (c : Char) (clusters : List (List Char)) :
    attach c false clusters = [c] :: clusters := by
  cases clusters <;> simp [attach]

/-- Nothing is lost in cutting, whatever comes before. -/
theorem flatten_clustersFrom (context : Context) (text : List Char) :
    (clustersFrom context text).flatten = text := by
  induction text generalizing context with
  | nil => rfl
  | cons c rest ih => rw [clustersFrom, flatten_attach, ih]

/-- Characters that stand by themselves do not join. -/
theorem joins_push_other (context : Context) : (context.push .other).joins .other = false := rfl

/-- Characters that stand by themselves are a cluster each. -/
theorem clustersFrom_eq_singletons (context : Context) {text : List Char}
    (h : ∀ c ∈ text, Kind.ofChar c = .other) : clustersFrom context text = text.map ([·]) := by
  induction text generalizing context with
  | nil => rfl
  | cons c rest ih =>
    have hc := h c (by simp)
    have halone :
        (rest.head?.any fun d => (context.push (.ofChar c)).joins (.ofChar d)) = false := by
      cases rest with
      | nil => rfl
      | cons d rest =>
        have hd := h d (by simp)
        simp [hc, hd, joins_push_other]
    rw [clustersFrom, halone, attach_false, ih _ fun d hd => h d (by simp [hd])]
    rfl

end Cluster

/-- Nothing is lost in cutting. -/
theorem flatten_clusters (text : List Char) : (clusters text).flatten = text :=
  Cluster.flatten_clustersFrom {} text

/-- Characters that stand by themselves are a cluster each. -/
theorem clusters_eq_singletons {text : List Char}
    (h : ∀ c ∈ text, Cluster.Kind.ofChar c = .other) : clusters text = text.map ([·]) :=
  Cluster.clustersFrom_eq_singletons {} h

end ClockStep.Text

/-! ### Backspaces -/

namespace ClockStep.Text

/-- The character that takes away the cluster before it. -/
def backspace : Char := '\x08'

/-- A text that is being put together, cluster by cluster. -/
structure Draft where
  /-- The characters, last first. -/
  reversed : List Char := []
  /-- How many bytes each cluster takes with it when it is taken away, last first. -/
  sizes : List UInt8 := []
deriving Repr, DecidableEq

/-- How many bytes characters take. -/
def byteLength (text : List Char) : Nat := (text.flatMap String.utf8EncodeChar).length

/-- Drops characters until so many bytes are gone. -/
def dropBytes : Nat → List Char → List Char
  | _, [] => []
  | 0, text => text
  | count, c :: rest => dropBytes (count - c.utf8Size) rest

namespace Draft

/-- Adds a cluster; a backspace takes away the one before it instead. -/
def add (draft : Draft) (cluster : List Char) : Draft :=
  if cluster = [backspace] then
    match draft.sizes with
    | [] => draft
    | size :: sizes => { reversed := dropBytes size.toNat draft.reversed, sizes }
  else
    { reversed := cluster.reverse ++ draft.reversed
      sizes := UInt8.ofNat (byteLength cluster) :: draft.sizes }

/-- The text as it stands. -/
def text (draft : Draft) : List Char := draft.reversed.reverse

/-- A cluster that is no backspace is added as it is. -/
theorem text_add {draft : Draft} {cluster : List Char} (h : cluster ≠ [backspace]) :
    (draft.add cluster).text = draft.text ++ cluster := by
  simp [add, text, h]

/-- Clusters without a backspace among them are added as they are. -/
theorem text_foldl_add {clusters : List (List Char)} (draft : Draft)
    (h : [backspace] ∉ clusters) :
    (clusters.foldl add draft).text = draft.text ++ clusters.flatten := by
  induction clusters generalizing draft with
  | nil => simp
  | cons cluster clusters ih =>
    simp only [List.mem_cons, not_or] at h
    rw [List.foldl_cons, ih _ h.2, text_add (Ne.symm h.1), List.flatten_cons, List.append_assoc]

end Draft

/-- The text that is left when the backspaces in it are applied. -/
def applyBackspaces (text : List Char) : List Char := ((clusters text).foldl Draft.add {}).text

/-- A text without backspaces stays as it is. -/
theorem applyBackspaces_eq_self {text : List Char} (h : backspace ∉ text) :
    applyBackspaces text = text := by
  have hclusters : [backspace] ∉ clusters text := fun hmem =>
    h (flatten_clusters text ▸ List.mem_flatten.2 ⟨_, hmem, by simp⟩)
  rw [applyBackspaces, Draft.text_foldl_add _ hclusters, flatten_clusters]
  rfl

end ClockStep.Text

import MarketMaker.Config.Loading
import MarketMaker.Proofs.Engine.Prices
import MarketMaker.Proofs.Json.Reading
/-!
A configuration that was written loads back. Its text has every key, so nothing of the preset under it
remains, and each field is read as it was, but that a zero loses its sign.
-/

namespace MarketMaker

open Json (Reader)

/-! ### Leaves -/

namespace Decimal

/-- Plain notation comes first when a text is read. -/
theorem ofAnyText?_toText (a : Decimal) : ofAnyText? a.toText = some a.unsignedZero := by
  rw [ofAnyText?, ofText_toText]
  rfl

theorem lt_unsignedZero {a b : Decimal} : a < b.unsignedZero ↔ a < b := by
  rw [lt_iff_value, lt_iff_value, value_unsignedZero]

theorem unsignedZero_lt {a b : Decimal} : a.unsignedZero < b ↔ a < b := by
  rw [lt_iff_value, lt_iff_value, value_unsignedZero]

theorem le_unsignedZero {a b : Decimal} : a ≤ b.unsignedZero ↔ a ≤ b := by
  rw [le_iff_value, le_iff_value, value_unsignedZero]

end Decimal

namespace Json

/-- A text, a truth value or a count that fits in a signed word. -/
inductive Leaf : Json → Prop
  | str (s : String) : Leaf (str s)
  | bool (b : Bool) : Leaf (bool b)
  | count {n : UInt64} (small : n.toNat < twoTo 63) : Leaf (ofWord n)

variable {names : List String} {v : Json}

theorem Leaf.decimal (a : Decimal) : Leaf (ofDecimal a) :=
  .str a.toText

theorem Leaf.plain (leaf : Leaf v) (n : ℕ) : Plain n v := by
  cases leaf with
  | str s => exact .str s
  | bool b => exact .bool b
  | @count n _ =>
    refine .int (le_trans (by norm_num) (Int.natCast_nonneg _)) ?_
    exact_mod_cast n.toNat_lt

theorem Leaf.normalize (leaf : Leaf v) : Settings.normalize v = v := by
  cases leaf with
  | str s => rw [Settings.normalize]; all_goals simp
  | bool b => rw [Settings.normalize]; all_goals simp
  | @count n small =>
    rw [ofWord, Settings.normalize, if_pos]
    exact_mod_cast small

theorem Leaf.override (leaf : Leaf v) (old : Option Json) : Settings.override old v = v := by
  cases leaf <;> rfl

/-- A reader that gets back what was written, but for the sign of a zero. -/
structure Reader.ReadsBack (r : Reader) : Prop where
  text (s : String) : r.text? (str s) = some s
  truth (b : Bool) : r.truth? (bool b) = some b
  word (n : UInt64) : r.word? (ofWord n) = some n
  decimal (a : Decimal) : r.decimal? (ofDecimal a) = some a.unsignedZero

theorem wordOfInt?_toNat (n : UInt64) : wordOfInt? n.toNat = some n := by
  have fits : (n.toNat : ℤ) < (twoTo 64 : ℕ) := by exact_mod_cast n.toNat_lt
  rw [wordOfInt?]
  split
  next => rw [Int.toNat_natCast, Nat.toUInt64_eq, UInt64.ofNat_toNat]
  next outside => exact absurd ⟨Int.natCast_nonneg _, fits⟩ outside

/-- The lenient reader converts only what is not of the type it wants. -/
theorem lenient_readsBack : Reader.lenient.ReadsBack where
  text _ := rfl
  truth _ := rfl
  word n := by simp only [Reader.lenient, ofWord, wordOfInt?_toNat]
  decimal := Decimal.ofAnyText?_toText

/-! ### Records -/

/-- An object of leaves under these names. -/
structure IsRecord (names : List String) (v : Json) : Prop where
  distinct : names.Nodup
  lowered : ∀ name ∈ names, lower name = name
  fields : ∃ fields, v = obj fields ∧ fields.map Prod.fst = names ∧ ∀ field ∈ fields, Leaf field.2

theorem IsRecord.plain (record : v.IsRecord names) : Plain 1 v := by
  obtain ⟨distinct, -, fields, rfl, rfl, leaves⟩ := record
  exact .obj distinct fun field member => (leaves field member).plain 0

theorem normalizeFields_eq_self {fields : List (String × Json)}
    (same : ∀ field ∈ fields, lower field.1 = field.1 ∧ Settings.normalize field.2 = field.2) :
    Settings.normalizeFields fields = fields := by
  induction fields with
  | nil => rw [Settings.normalizeFields]
  | cons field rest ih =>
    obtain ⟨key, value⟩ := same field List.mem_cons_self
    rw [Settings.normalizeFields, key, value, ih fun other member => same other (List.mem_cons_of_mem _ member)]

theorem IsRecord.normalize (record : v.IsRecord names) : Settings.normalize v = v := by
  obtain ⟨-, lowered, fields, rfl, rfl, leaves⟩ := record
  rw [Settings.normalize, normalizeFields_eq_self fun field member =>
    ⟨lowered field.1 (List.mem_map_of_mem member), (leaves field member).normalize⟩]

theorem put_middle {key : String} {value replaced : Json} {done rest : List (String × Json)}
    (new : key ∉ done.map Prod.fst) :
    Table.put key value (done ++ (key, replaced) :: rest) = done ++ (key, value) :: rest := by
  induction done with
  | nil => rw [List.nil_append, Table.put, if_pos rfl, List.nil_append]
  | cons field done ih =>
    rw [List.map_cons, List.mem_cons, not_or] at new
    rw [List.cons_append, Table.put, if_neg (Ne.symm new.1), ih new.2, List.cons_append]

theorem get?_middle {key : String} {value : Json} {done rest : List (String × Json)}
    (new : key ∉ done.map Prod.fst) : Table.get? key (done ++ (key, value) :: rest) = some value := by
  induction done with
  | nil => rw [List.nil_append, Table.get?, if_pos rfl]
  | cons field done ih =>
    rw [List.map_cons, List.mem_cons, not_or] at new
    rw [List.cons_append, Table.get?, if_neg (Ne.symm new.1), ih new.2]

/-- Fields over fields of the same names, of which the first are done. -/
theorem overrideFields_covers_from {done fields fields' : List (String × Json)}
    (distinct : ((done ++ fields').map Prod.fst).Nodup)
    (same : fields.map Prod.fst = fields'.map Prod.fst)
    (covers : ∀ pair ∈ fields.zip fields', Settings.override (some pair.1.2) pair.2.2 = pair.2.2) :
    Settings.overrideFields (obj (done ++ fields)) fields' = obj (done ++ fields') := by
  induction fields' generalizing done fields with
  | nil => rw [List.map_eq_nil_iff.1 same, Settings.overrideFields]
  | cons field rest' ih =>
    obtain ⟨⟨key, replaced⟩, rest, rfl, named, same'⟩ := List.map_eq_cons_iff.1 same
    obtain ⟨_, value⟩ := field
    obtain rfl : key = _ := named
    have new : key ∉ done.map Prod.fst := by
      rw [List.map_append, List.nodup_append] at distinct
      exact fun member => distinct.2.2 key member key (by simp) rfl
    have shifted : Settings.overrideFields (obj ((done ++ [(key, value)]) ++ rest)) rest' =
        obj ((done ++ [(key, value)]) ++ rest') :=
      ih (by simpa using distinct) same' fun pair member => covers pair (List.mem_cons_of_mem _ member)
    have covered := covers _ List.mem_cons_self
    dsimp only at covered
    rw [Settings.overrideFields]
    simp only [Settings.fieldsOf, get?_middle new, covered, put_middle new]
    simpa using shifted

/-- Nothing is left of what was there. -/
theorem overrideFields_covers {fields fields' : List (String × Json)}
    (distinct : (fields'.map Prod.fst).Nodup) (same : fields.map Prod.fst = fields'.map Prod.fst)
    (covers : ∀ pair ∈ fields.zip fields', Settings.override (some pair.1.2) pair.2.2 = pair.2.2) :
    Settings.overrideFields (obj fields) fields' = obj fields' := by
  have covered : Settings.overrideFields (obj ([] ++ fields)) fields' = obj ([] ++ fields') :=
    overrideFields_covers_from distinct same covers
  exact covered

/-- A record over fields of the same names replaces them. -/
theorem IsRecord.override (record : v.IsRecord names) {fields : List (String × Json)}
    (same : fields.map Prod.fst = names) : Settings.override (some (obj fields)) v = v := by
  obtain ⟨distinct, -, fields', rfl, rfl, leaves⟩ := record
  exact overrideFields_covers distinct same fun pair member => (leaves _ (List.of_mem_zip member).2).override _

theorem record?_own (r : Reader) (names : List String) {fields : List (String × Json)}
    (named : fields.map Prod.fst = names) (distinct : names.Nodup) :
    record? r names (obj fields) = some (fields.map fun field => some field.2) := by
  subst named
  rw [record?, List.map_map, Option.some_inj, List.map_inj_left]
  intro field member
  obtain ⟨done, rest, rfl⟩ := List.append_of_mem member
  rw [List.map_append, List.nodup_append] at distinct
  exact get?_middle fun earlier => distinct.2.2 field.1 earlier field.1 (by simp) rfl

end Json

/-! ### Sections -/

variable {r : Reader}

namespace MarketConfig

/-- With zeros that have no sign. -/
def unsigned (m : MarketConfig) : MarketConfig :=
  { m with tickSize := m.tickSize.unsignedZero, lotSize := m.lotSize.unsignedZero }

/-- Equal but for how a decimal is represented. -/
structure Same (m m' : MarketConfig) : Prop where
  venue : m.venue = m'.venue
  pair : m.pair = m'.pair
  tickSize : m.tickSize.value = m'.tickSize.value
  lotSize : m.lotSize.value = m'.lotSize.value

theorem same_unsigned (m : MarketConfig) : m.unsigned.Same m where
  venue := rfl
  pair := rfl
  tickSize := m.tickSize.value_unsignedZero
  lotSize := m.lotSize.value_unsignedZero

theorem isRecord (m : MarketConfig) : m.toJson.IsRecord names where
  distinct := by decide
  lowered := by decide +kernel
  fields := ⟨_, rfl, rfl, by simp [Json.Leaf.str, Json.Leaf.decimal]⟩

theorem ofJson?_toJson (reads : r.ReadsBack) (m : MarketConfig) :
    ofJson? r m.toJson = some m.unsigned := by
  rw [ofJson?, toJson, Json.record?_own r names rfl (by decide)]
  simp [Json.fieldAt, Json.required?, Json.optional?, reads.text, reads.decimal, unsigned]

end MarketConfig

namespace StrategyConfig

def unsigned (s : StrategyConfig) : StrategyConfig :=
  { s with
    orderAmount := s.orderAmount.unsignedZero
    spreadBps := s.spreadBps.unsignedZero
    minSpreadBps := s.minSpreadBps.unsignedZero
    slippageBufferBps := s.slippageBufferBps.unsignedZero
    makerFee := s.makerFee.unsignedZero
    takerFee := s.takerFee.unsignedZero
    minOrderAmount := s.minOrderAmount.unsignedZero }

structure Same (s s' : StrategyConfig) : Prop where
  orderAmount : s.orderAmount.value = s'.orderAmount.value
  spreadBps : s.spreadBps.value = s'.spreadBps.value
  minSpreadBps : s.minSpreadBps.value = s'.minSpreadBps.value
  slippageBufferBps : s.slippageBufferBps.value = s'.slippageBufferBps.value
  maxOrderAgeSecs : s.maxOrderAgeSecs = s'.maxOrderAgeSecs
  makerFee : s.makerFee.value = s'.makerFee.value
  takerFee : s.takerFee.value = s'.takerFee.value
  minOrderAmount : s.minOrderAmount.value = s'.minOrderAmount.value
  haltOnUnhedgedFill : s.haltOnUnhedgedFill = s'.haltOnUnhedgedFill

theorem same_unsigned (s : StrategyConfig) : s.unsigned.Same s := by
  constructor <;> first | rfl | exact Decimal.value_unsignedZero _

theorem isRecord (s : StrategyConfig) (small : s.maxOrderAgeSecs.toNat < twoTo 63) :
    s.toJson.IsRecord names where
  distinct := by decide
  lowered := by decide +kernel
  fields := ⟨_, rfl, rfl, by simp [Json.Leaf.bool, Json.Leaf.decimal, Json.Leaf.count small]⟩

theorem ofJson?_toJson (reads : r.ReadsBack) (s : StrategyConfig) :
    ofJson? r s.toJson = some s.unsigned := by
  rw [ofJson?, toJson, Json.record?_own r names rfl (by decide)]
  simp [Json.fieldAt, Json.optional?, reads.truth, reads.word, reads.decimal, unsigned]

end StrategyConfig

namespace RuntimeConfig

theorem isRecord (c : RuntimeConfig) (small : c.tickIntervalMs.toNat < twoTo 63)
    (small' : c.statusEveryTicks.toNat < twoTo 63) : c.toJson.IsRecord names where
  distinct := by decide
  lowered := by decide +kernel
  fields := ⟨_, rfl, rfl, by simp [Json.Leaf.str, Json.Leaf.count small, Json.Leaf.count small']⟩

theorem ofJson?_toJson (reads : r.ReadsBack) (c : RuntimeConfig) : ofJson? r c.toJson = some c := by
  rw [ofJson?, toJson, Json.record?_own r names rfl (by decide)]
  simp [Json.fieldAt, Json.optional?, reads.text, reads.word]

end RuntimeConfig

namespace ArchiveConfig

theorem isRecord (a : ArchiveConfig) (small : a.depth.toNat < twoTo 63)
    (small' : a.flushIntervalSecs.toNat < twoTo 63) : a.toJson.IsRecord names where
  distinct := by decide
  lowered := by decide +kernel
  fields := ⟨_, rfl, rfl, by
    simp [Json.Leaf.str, Json.Leaf.bool, Json.Leaf.count small, Json.Leaf.count small']⟩

theorem ofJson?_toJson (reads : r.ReadsBack) (a : ArchiveConfig) : ofJson? r a.toJson = some a := by
  rw [ofJson?, toJson, Json.record?_own r names rfl (by decide)]
  simp [Json.fieldAt, Json.optional?, reads.text, reads.truth, reads.word]

end ArchiveConfig

namespace PaperConfig

def unsigned (p : PaperConfig) : PaperConfig :=
  { p with
    startMid := p.startMid.unsignedZero
    halfSpreadBps := p.halfSpreadBps.unsignedZero
    levelStepBps := p.levelStepBps.unsignedZero
    levelAmount := p.levelAmount.unsignedZero
    driftBps := p.driftBps.unsignedZero
    baseBalance := p.baseBalance.unsignedZero
    quoteBalance := p.quoteBalance.unsignedZero }

structure Same (p p' : PaperConfig) : Prop where
  startMid : p.startMid.value = p'.startMid.value
  halfSpreadBps : p.halfSpreadBps.value = p'.halfSpreadBps.value
  levelStepBps : p.levelStepBps.value = p'.levelStepBps.value
  levels : p.levels = p'.levels
  levelAmount : p.levelAmount.value = p'.levelAmount.value
  driftBps : p.driftBps.value = p'.driftBps.value
  swingTicks : p.swingTicks = p'.swingTicks
  makerLagTicks : p.makerLagTicks = p'.makerLagTicks
  baseBalance : p.baseBalance.value = p'.baseBalance.value
  quoteBalance : p.quoteBalance.value = p'.quoteBalance.value

theorem same_unsigned (p : PaperConfig) : p.unsigned.Same p := by
  constructor <;> first | rfl | exact Decimal.value_unsignedZero _

theorem isRecord (p : PaperConfig) (small : p.levels.toNat < twoTo 63)
    (small' : p.swingTicks.toNat < twoTo 63) (small'' : p.makerLagTicks.toNat < twoTo 63) :
    p.toJson.IsRecord names where
  distinct := by decide
  lowered := by decide +kernel
  fields := ⟨_, rfl, rfl, by
    simp [Json.Leaf.decimal, Json.Leaf.count small, Json.Leaf.count small', Json.Leaf.count small'']⟩

theorem ofJson?_toJson (reads : r.ReadsBack) (p : PaperConfig) :
    ofJson? r p.toJson = some p.unsigned := by
  rw [ofJson?, toJson, Json.record?_own r names rfl (by decide)]
  simp [Json.fieldAt, Json.optional?, reads.word, reads.decimal, unsigned]

end PaperConfig

/-! ### Layers -/

namespace Settings

/-- Keys that are single steps are put one after the other. -/
theorem layer_eq_overrideFields {settings : Json} {entries : List (String × Json)}
    (single : ∀ entry ∈ entries, pathOf entry.1 = [.key entry.1]) :
    layer settings entries = overrideFields settings entries := by
  induction entries generalizing settings with
  | nil => rw [layer, List.foldl_nil, overrideFields]
  | cons entry rest ih =>
    rw [layer, List.foldl_cons, ← layer, ih fun other member => single other (List.mem_cons_of_mem _ member),
      single entry List.mem_cons_self, overrideFields, overrideAt, overrideAt]

theorem after?_eq_none_iff {front text : List Char} : after? front text = none ↔ ¬ front <+: text := by
  induction front generalizing text with
  | nil => simp [after?]
  | cons f front ih =>
    cases text with
    | nil => simp [after?]
    | cons c text =>
      rw [after?, List.cons_prefix_cons]
      split <;> simp_all

/-- Variables of other names are not looked at. -/
theorem ofVariable?_of_other {name value : String}
    (other : ¬ "xemm__".toList <+: (Json.lower name).toList) : ofVariable? name value = none := by
  rw [ofVariable?, after?_eq_none_iff.2 other, Option.map_none]

end Settings

namespace Config

variable {c old : Config}

/-- All counts fit in a signed word. -/
structure Small (c : Config) : Prop where
  maxOrderAgeSecs : c.strategy.maxOrderAgeSecs.toNat < twoTo 63
  tickIntervalMs : c.runtime.tickIntervalMs.toNat < twoTo 63
  statusEveryTicks : c.runtime.statusEveryTicks.toNat < twoTo 63
  depth : c.archive.depth.toNat < twoTo 63
  flushIntervalSecs : c.archive.flushIntervalSecs.toNat < twoTo 63
  levels : c.paper.levels.toNat < twoTo 63
  swingTicks : c.paper.swingTicks.toNat < twoTo 63
  makerLagTicks : c.paper.makerLagTicks.toNat < twoTo 63

def unsigned (c : Config) : Config :=
  { c with
    maker := c.maker.unsigned
    taker := c.taker.unsigned
    strategy := c.strategy.unsigned
    paper := c.paper.unsigned }

/-- Equal but for how decimals are represented. -/
structure Same (c c' : Config) : Prop where
  maker : c.maker.Same c'.maker
  taker : c.taker.Same c'.taker
  strategy : c.strategy.Same c'.strategy
  runtime : c.runtime = c'.runtime
  archive : c.archive = c'.archive
  paper : c.paper.Same c'.paper

theorem same_unsigned (c : Config) : c.unsigned.Same c where
  maker := c.maker.same_unsigned
  taker := c.taker.same_unsigned
  strategy := c.strategy.same_unsigned
  runtime := rfl
  archive := rfl
  paper := c.paper.same_unsigned

theorem names_nodup : names.Nodup := by
  decide

theorem isRecord_sections (small : c.Small) {fields : List (String × Json)}
    (written : c.toJson = .obj fields) : ∀ field ∈ fields, ∃ names, field.2.IsRecord names := by
  cases written
  simp only [List.forall_mem_cons]
  exact ⟨⟨_, c.maker.isRecord⟩, ⟨_, c.taker.isRecord⟩, ⟨_, c.strategy.isRecord small.maxOrderAgeSecs⟩,
    ⟨_, c.runtime.isRecord small.tickIntervalMs small.statusEveryTicks⟩,
    ⟨_, c.archive.isRecord small.depth small.flushIntervalSecs⟩,
    ⟨_, c.paper.isRecord small.levels small.swingTicks small.makerLagTicks⟩, List.forall_mem_nil _⟩

theorem plain_toJson (small : c.Small) : Json.Plain 2 c.toJson :=
  .obj names_nodup fun field member =>
    have ⟨_, record⟩ := isRecord_sections small rfl field member
    record.plain

theorem normalizeFields_toJson (small : c.Small) {fields : List (String × Json)}
    (written : c.toJson = .obj fields) : Settings.normalizeFields fields = fields := by
  have lowered : ∀ field ∈ fields, Json.lower field.1 = field.1 := by
    have lowered : ∀ name ∈ names, Json.lower name = name := by decide +kernel
    cases written
    exact fun field member => lowered field.1 (List.mem_map_of_mem member)
  refine Json.normalizeFields_eq_self fun field member => ⟨lowered field member, ?_⟩
  obtain ⟨_, record⟩ := isRecord_sections small written field member
  exact record.normalize

/-- A written configuration over another one leaves nothing of that. -/
theorem layer_toJson (small : c.Small) {fields : List (String × Json)} (written : c.toJson = .obj fields)
    (old : Config) : Settings.layer old.toJson fields = c.toJson := by
  have single : ∀ entry ∈ fields, Settings.pathOf entry.1 = [.key entry.1] := by
    have single : ∀ name ∈ names, Settings.pathOf name = [.key name] := by decide +kernel
    cases written
    exact fun entry member => single entry.1 (List.mem_map_of_mem member)
  rw [Settings.layer_eq_overrideFields single]
  cases written
  refine Json.overrideFields_covers names_nodup rfl ?_
  simp only [List.zip_cons_cons, List.forall_mem_cons]
  exact ⟨c.maker.isRecord.override rfl, c.taker.isRecord.override rfl,
    (c.strategy.isRecord small.maxOrderAgeSecs).override rfl,
    (c.runtime.isRecord small.tickIntervalMs small.statusEveryTicks).override rfl,
    (c.archive.isRecord small.depth small.flushIntervalSecs).override rfl,
    (c.paper.isRecord small.levels small.swingTicks small.makerLagTicks).override rfl, List.forall_mem_nil _⟩

theorem ofJson?_toJson (reads : r.ReadsBack) (c : Config) : ofJson? r c.toJson = some c.unsigned := by
  rw [ofJson?, toJson, Json.record?_own r names rfl names_nodup]
  simp [Json.fieldAt, Json.optional?, MarketConfig.ofJson?_toJson reads, StrategyConfig.ofJson?_toJson reads,
    RuntimeConfig.ofJson?_toJson reads, ArchiveConfig.ofJson?_toJson reads, PaperConfig.ofJson?_toJson reads,
    unsigned]

theorem strategyRules_unsigned (s : StrategyConfig) :
    (strategyRules s.unsigned).map Prod.fst = (strategyRules s).map Prod.fst := by
  simp only [strategyRules, StrategyConfig.unsigned, List.map_cons, List.map_nil, Decimal.lt_unsignedZero,
    Decimal.unsignedZero_lt, Decimal.le_unsignedZero]
  rfl

theorem marketRules_unsigned (m : MarketConfig) :
    (marketRules m.unsigned).map Prod.fst = (marketRules m).map Prod.fst := by
  simp only [marketRules, MarketConfig.unsigned, List.map_cons, List.map_nil, Decimal.le_unsignedZero]

theorem rules_unsigned (c : Config) : c.unsigned.rules.map Prod.fst = c.rules.map Prod.fst := by
  simp only [rules, List.map_append, List.map_cons, ← strategyRules_unsigned c.strategy,
    ← marketRules_unsigned c.maker, ← marketRules_unsigned c.taker]
  rfl

/-- No rule looks at the sign of a zero. -/
theorem validate_unsigned (valid : c.validate = .ok ()) : c.unsigned.validate = .ok () := by
  have kept : ∀ rule ∈ c.unsigned.rules, rule.1 = true := by
    intro rule member
    have found : rule.1 ∈ c.rules.map Prod.fst := rules_unsigned c ▸ List.mem_map_of_mem member
    obtain ⟨rule', member', equal⟩ := List.mem_map.1 found
    rw [← equal, rules_of_validate valid rule' member']
  have none : (c.unsigned.rules.find? fun rule => !rule.1) = none :=
    List.find?_eq_none.2 fun rule member => by simp [kept rule member]
  rw [validate, none]

/-- A valid configuration whose counts fit in a signed word loads from its own text, be it compact or
indented, where no variable of the environment is read: whatever the preset, every field is what it was. -/
theorem load_written {environment : List (String × String)} {text : String} (valid : c.validate = .ok ())
    (small : c.Small) (written : text = c.toJson.toText ∨ text = c.toJson.pretty)
    (other : ∀ entry ∈ environment, ¬ "xemm__".toList <+: (Json.lower entry.1).toList)
    (preset : Preset) :
    ∃ loaded, load preset (.text text) environment = .ok loaded ∧ loaded.Same c := by
  obtain ⟨fields, object⟩ : ∃ fields, c.toJson = .obj fields := ⟨_, rfl⟩
  have entries : (ConfigFile.text text).entries = .ok fields := by
    rw [ConfigFile.entries, Json.ofText?_written (plain_toJson small) (by decide) written, object]
    dsimp only
    rw [normalizeFields_toJson small object]
  refine ⟨c.unsigned, ?_, c.same_unsigned⟩
  rw [load, entries]
  simp only [bind, Except.bind, layer_toJson small object]
  rw [List.filterMap_eq_nil_iff.2]
  · simp only [Settings.layer, List.foldl_nil, ofJson?_toJson Json.lenient_readsBack, validate_unsigned valid]
    rfl
  · exact fun entry member => Settings.ofVariable?_of_other (other entry member)

/-- The longest time between reports that can be written, and a drift with a sign that is lost. -/
def farReporting : Config :=
  { Preset.krakenBinanceUs.config with
    runtime := { statusEveryTicks := 0x7fffffffffffffff }
    paper := { driftBps := { (0 : Decimal) with negative := true } } }

theorem load_written_farReporting : farReporting.validate = .ok () ∧ farReporting.Small ∧
    ∃ loaded, load .standard (.text farReporting.toJson.pretty) [("HOME", "/root")] = .ok loaded ∧
      loaded.Same farReporting := by
  have valid : farReporting.validate = .ok () := by decide +kernel
  have small : farReporting.Small := by constructor <;> decide +kernel
  exact ⟨valid, small, load_written valid small (.inr rfl) (by decide +kernel) .standard⟩

end Config

end MarketMaker

import DeviceSdk.Parson.Grammar

/-!
# What the parser accepts

`parse_value` of `parson.c` reads a document that starts with a text of a value, and nothing else.
One turn of its loops reads one item or one member; the recursion is on the levels that are left.

## Main results

- `parseItems_sound`, `parseItems_complete` — the loop over the items of an array
- `parseMembers_sound`, `parseMembers_text` — the loop over the members of an object
- `parseValue_iff`
-/

namespace DeviceSdk.Parson

variable {D : Type} (lib : DoubleText D)

-- ════════════════════════════════════════════════════════════════════════
-- Arrays
-- ════════════════════════════════════════════════════════════════════════

theorem ItemsText.spaces_append {items : List (JsonValue D)} {ws t : Bytes} (hws : Spaces ws)
    (h : ItemsText lib items t) : ItemsText lib items (ws ++ t) := by
  cases items with
  | nil => exact List.forall_mem_append.mpr ⟨hws, h⟩
  | cons x xs =>
    obtain ⟨a, u, b, r, rfl, ha, hu, hb, hr⟩ := h
    exact ⟨ws ++ a, u, b, r, by rw [List.append_assoc], List.forall_mem_append.mpr ⟨hws, ha⟩, hu,
      hb, hr⟩

theorem ItemsText.length_le {items : List (JsonValue D)} {t : Bytes} (h : ItemsText lib items t) :
    items.length ≤ t.length := by
  induction items generalizing t with
  | nil => exact Nat.zero_le _
  | cons x xs ih =>
    obtain ⟨a, u, b, r, rfl, ha, hu, hb, hr⟩ := h
    obtain ⟨c, u', rfl, -⟩ := TextOf.kind lib hu
    simp only [List.length_append, List.length_cons]
    obtain ⟨rfl, -⟩ | ⟨-, r', rfl, hr'⟩ := hr
    · rw [List.length_nil]
      omega
    · have hlen := ih hr'
      rw [List.length_cons]
      omega

section

variable {lib} {parse : Bytes → Option (JsonValue D × Bytes)} {room : ℕ}

theorem parseItems_sound
    (hparse : ∀ s v rest, parse s = some (v, rest) →
      Reads lib room s v rest ∨ ReadsSign lib room s v rest)
    {fuel : ℕ} {s rest : Bytes} {items : List (JsonValue D)}
    (h : parseItems parse fuel s = some (items, rest)) :
    items ≠ [] ∧ (∃ body, s = body ++ ']'.toUInt8 :: rest ∧ ItemsText lib items body) ∧
      JsonValue.DistinctItems items ∧ JsonValue.depthItems items ≤ room := by
  induction fuel generalizing s items with
  | zero => cases h
  | succ fuel ih =>
    rw [parseItems] at h
    cases hp : parse s with
    | none => simp [hp] at h
    | some p =>
      obtain ⟨v, s1⟩ := p
      simp only [hp] at h
      obtain ⟨b, hb, hs1⟩ := exists_spaces s1
      cases hskip : skipWhitespaces s1 with
      | nil => simp [hskip] at h
      | cons c s2 =>
        simp only [hskip] at h
        rw [hskip] at hs1
        have hreads : Reads lib room s v s1 := by
          refine (hparse s v s1 hp).resolve_right fun hsign => ?_
          obtain ⟨r, hr⟩ := hsign.head
          rw [hskip] at hr
          rw [(List.cons.inj hr).1, if_neg (by decide), if_neg (by decide)] at h
          cases h
        obtain ⟨a, u, rfl, ha, hu, hdistinct, hdepth, -⟩ := hreads
        split_ifs at h with hcomma hend
        · obtain ⟨⟨vs, rest'⟩, htail, heq⟩ := Option.map_eq_some_iff.mp h
          obtain ⟨rfl, rfl⟩ := Prod.mk.inj heq
          obtain ⟨hne, ⟨body, hbody, hitems⟩, hdistincts, hdepths⟩ := ih htail
          obtain ⟨ws, hws, hs2⟩ := exists_spaces s2
          refine ⟨List.cons_ne_nil _ _, ⟨a ++ (u ++ (b ++ c :: (ws ++ body))), ?_, a, u, b, _, rfl,
            ha, hu, hb, .inr ⟨hne, ws ++ body, by rw [hcomma], hitems.spaces_append lib hws⟩⟩,
            ⟨hdistinct, hdistincts⟩, max_le hdepth hdepths⟩
          rw [hs1, hs2, hbody]
          simp only [List.append_assoc, List.cons_append]
        · obtain ⟨rfl, rfl⟩ := Prod.mk.inj (Option.some.inj h)
          refine ⟨List.cons_ne_nil _ _, ⟨a ++ (u ++ (b ++ [])), ?_, a, u, b, [], rfl, ha, hu, hb,
            .inl ⟨rfl, rfl⟩⟩, ⟨hdistinct, trivial⟩, max_le hdepth (Nat.zero_le _)⟩
          rw [hs1, hend]
          simp only [List.append_assoc, List.append_nil]

theorem parseItems_complete
    (hparse : ∀ s v rest, Reads lib room s v rest → parse s = some (v, rest))
    {items : List (JsonValue D)} {body : Bytes} (hitems : ItemsText lib items body)
    (hne : items ≠ []) (hdistinct : JsonValue.DistinctItems items)
    (hdepth : JsonValue.depthItems items ≤ room) {fuel : ℕ} (hfuel : items.length ≤ fuel)
    (rest : Bytes) :
    parseItems parse fuel (skipWhitespaces (body ++ ']'.toUInt8 :: rest)) = some (items, rest) := by
  induction items generalizing body fuel with
  | nil => exact absurd rfl hne
  | cons x xs ih =>
    obtain ⟨fuel, rfl⟩ : ∃ m, fuel = m + 1 := ⟨fuel - 1, by rw [List.length_cons] at hfuel; omega⟩
    obtain ⟨a, u, b, r, rfl, ha, hu, hb, hr⟩ := hitems
    have hstops : Scan.Stops isspace (u ++ (b ++ r) ++ ']'.toUInt8 :: rest) := by
      obtain ⟨c, u', rfl, hc⟩ := TextOf.kind lib hu
      rw [List.cons_append, List.cons_append, Scan.stops_cons]
      exact hc.not_space
    rw [List.append_assoc a, skipWhitespaces_append ha hstops, List.append_assoc u,
      List.append_assoc b, parseItems]
    have hdepth' := max_le_iff.mp hdepth
    obtain ⟨rfl, rfl⟩ | ⟨hxs, r', rfl, hr'⟩ := hr
    · have hend : ∀ d, ([] ++ ']'.toUInt8 :: rest).head? = some d → Delimiter d := by
        intro d hd
        obtain rfl : ']'.toUInt8 = d := Option.some.inj hd
        exact .inr (by decide)
      rw [hparse _ _ _ (Reads.of_text hu hdistinct.1 hdepth'.1
        (follows_of_delimiter (head_spaces_append hb hend)))]
      have hstop : Scan.Stops isspace ([] ++ ']'.toUInt8 :: rest) :=
        Scan.stops_cons.mpr (by decide)
      simp only
      rw [skipWhitespaces_append hb hstop]
      rfl
    · have hcomma : ∀ d, (','.toUInt8 :: r' ++ ']'.toUInt8 :: rest).head? = some d →
          Delimiter d := by
        intro d hd
        obtain rfl : ','.toUInt8 = d := Option.some.inj hd
        exact .inr (by decide)
      rw [hparse _ _ _ (Reads.of_text hu hdistinct.1 hdepth'.1
        (follows_of_delimiter (head_spaces_append hb hcomma)))]
      have hstop : Scan.Stops isspace (','.toUInt8 :: r' ++ ']'.toUInt8 :: rest) :=
        Scan.stops_cons.mpr (by decide)
      simp only
      rw [skipWhitespaces_append hb hstop, List.cons_append]
      simp only [if_true]
      rw [ih hr' hxs hdistinct.2 hdepth'.2 (by rw [List.length_cons] at hfuel; omega)]
      rfl

end

-- ════════════════════════════════════════════════════════════════════════
-- Objects
-- ════════════════════════════════════════════════════════════════════════

theorem getQuotedString_iff_quotedText {s name rest : Bytes} :
    getQuotedString s = some (name, rest) ↔ ∃ q, s = q ++ rest ∧ QuotedText name q := by
  rw [getQuotedString_iff]
  constructor
  · rintro ⟨content, out, rfl, htext, rfl⟩
    exact ⟨_, by simp, content, out, rfl, htext, rfl⟩
  · rintro ⟨q, rfl, content, out, rfl, htext, rfl⟩
    exact ⟨content, out, by simp, htext, rfl⟩

theorem objectGet_eq_none {members : List (Bytes × JsonValue D)} {name : Bytes} :
    objectGet name members = none ↔ name ∉ members.map Prod.fst := by
  induction members with
  | nil => simp [objectGet]
  | cons m ms ih =>
    rw [objectGet, List.map_cons, List.mem_cons, not_or]
    split_ifs with hname
    · simp [hname]
    · rw [ih]
      exact ⟨fun h => ⟨fun heq => hname heq.symm, h⟩, fun h => h.2⟩

theorem objectAdd_eq_some {members members' : List (Bytes × JsonValue D)} {name : Bytes}
    {v : JsonValue D} : objectAdd members name v = some members' ↔
      name ∉ members.map Prod.fst ∧ members' = members ++ [(name, v)] := by
  rw [objectAdd, ← objectGet_eq_none]
  cases objectGet name members with
  | none => simp [eq_comm]
  | some w => simp

theorem MembersText.spaces_append {members : List (Bytes × JsonValue D)} {ws t : Bytes}
    (hws : Spaces ws) (h : MembersText lib members t) : MembersText lib members (ws ++ t) := by
  cases members with
  | nil => exact List.forall_mem_append.mpr ⟨hws, h⟩
  | cons m ms =>
    obtain ⟨a, q, b, c, u, d, r, rfl, ha, hrest⟩ := h
    exact ⟨ws ++ a, q, b, c, u, d, r, by rw [List.append_assoc],
      List.forall_mem_append.mpr ⟨hws, ha⟩, hrest⟩

theorem MembersText.length_le {members : List (Bytes × JsonValue D)} {t : Bytes}
    (h : MembersText lib members t) : members.length ≤ t.length := by
  induction members generalizing t with
  | nil => exact Nat.zero_le _
  | cons m ms ih =>
    obtain ⟨a, q, b, c, u, d, r, rfl, -, -, -, -, -, -, hr⟩ := h
    simp only [List.length_append, List.length_cons]
    obtain ⟨rfl, -⟩ | ⟨-, r', rfl, hr'⟩ := hr
    · rw [List.length_nil]
      omega
    · have hlen := ih hr'
      rw [List.length_cons]
      omega

section

variable {lib} {parse : Bytes → Option (JsonValue D × Bytes)} {room : ℕ}

theorem parseMembers_sound
    (hparse : ∀ s v rest, parse s = some (v, rest) →
      Reads lib room s v rest ∨ ReadsSign lib room s v rest)
    {fuel : ℕ} {s rest : Bytes} {acc members : List (Bytes × JsonValue D)}
    (hacc : (acc.map Prod.fst).Nodup)
    (h : parseMembers parse fuel acc s = some (members, rest)) :
    ∃ new, members = acc ++ new ∧ new ≠ [] ∧
      (∃ body, s = body ++ '\x7d'.toUInt8 :: rest ∧ MembersText lib new body) ∧
      (members.map Prod.fst).Nodup ∧ JsonValue.DistinctMembers new ∧
      JsonValue.depthMembers new ≤ room := by
  induction fuel generalizing s acc with
  | zero => cases h
  | succ fuel ih =>
    rw [parseMembers] at h
    split at h
    case h_1 => cases h
    case h_2 name s1 hname =>
      obtain ⟨q, rfl, hq⟩ := getQuotedString_iff_quotedText.mp hname
      obtain ⟨b, hb, hs1⟩ := exists_spaces s1
      split at h
      case h_1 => cases h
      case h_2 colon s2 hskip =>
        split_ifs at h with hcolon
        rw [not_not] at hcolon
        rw [hskip, hcolon] at hs1
        split at h
        case h_1 => cases h
        case h_2 v s3 hv =>
          split at h
          case h_1 => cases h
          case h_2 acc' hadd =>
            obtain ⟨hnotMem, rfl⟩ := objectAdd_eq_some.mp hadd
            have hacc' : ((acc ++ [(name, v)]).map Prod.fst).Nodup := by
              rw [List.map_append, List.nodup_append_comm]
              exact List.nodup_cons.mpr ⟨hnotMem, hacc⟩
            obtain ⟨d, hd, hs3⟩ := exists_spaces s3
            split at h
            case h_1 => cases h
            case h_2 e s4 hskip' =>
              rw [hskip'] at hs3
              have hreads : Reads lib room s2 v s3 := by
                refine (hparse s2 v s3 hv).resolve_right fun hsign => ?_
                obtain ⟨r, hr⟩ := hsign.head
                rw [hskip'] at hr
                rw [(List.cons.inj hr).1, if_neg (by decide), if_neg (by decide)] at h
                cases h
              obtain ⟨c, u, rfl, hc, hu, hdistinct, hdepth, -⟩ := hreads
              split_ifs at h with hcomma hend
              · obtain ⟨new, rfl, hne, ⟨body, hbody, hmembers⟩, hnodup, hdistincts, hdepths⟩ :=
                  ih hacc' h
                obtain ⟨ws, hws, hs4⟩ := exists_spaces s4
                refine ⟨(name, v) :: new, by simp, List.cons_ne_nil _ _,
                  ⟨[] ++ (q ++ (b ++ ':'.toUInt8 :: (c ++ (u ++ (d ++ e :: (ws ++ body)))))), ?_,
                    [], q, b, c, u, d, _, rfl, spaces_nil, hq, hb, hc, hu, hd,
                    .inr ⟨hne, ws ++ body, by rw [hcomma], hmembers.spaces_append lib hws⟩⟩,
                  hnodup, ⟨hdistinct, hdistincts⟩, max_le hdepth hdepths⟩
                rw [hs1, hs3, hs4, hbody]
                simp only [List.append_assoc, List.cons_append, List.nil_append]
              · obtain ⟨rfl, rfl⟩ := Prod.mk.inj (Option.some.inj h)
                refine ⟨[(name, v)], rfl, List.cons_ne_nil _ _,
                  ⟨[] ++ (q ++ (b ++ ':'.toUInt8 :: (c ++ (u ++ (d ++ []))))), ?_,
                    [], q, b, c, u, d, [], rfl, spaces_nil, hq, hb, hc, hu, hd, .inl ⟨rfl, rfl⟩⟩,
                  hacc', ⟨hdistinct, trivial⟩, max_le hdepth (Nat.zero_le _)⟩
                rw [hs1, hs3, hend]
                simp only [List.append_assoc, List.cons_append, List.nil_append, List.append_nil]

theorem objectAdd_eq_none {members : List (Bytes × JsonValue D)} {name : Bytes} (v : JsonValue D)
    (h : name ∈ members.map Prod.fst) : objectAdd members name v = none := by
  refine Option.eq_none_iff_forall_ne_some.mpr fun members' hadd => ?_
  exact (objectAdd_eq_some.mp hadd).1 h

/-- The members of an object are read, unless one of them has the name of another. -/
theorem parseMembers_text
    (hparse : ∀ s v rest, Reads lib room s v rest → parse s = some (v, rest))
    {new acc : List (Bytes × JsonValue D)} {body : Bytes} (hmembers : MembersText lib new body)
    (hne : new ≠ []) (hacc : (acc.map Prod.fst).Nodup)
    (hdistinct : JsonValue.DistinctMembers new) (hdepth : JsonValue.depthMembers new ≤ room)
    {fuel : ℕ} (hfuel : new.length ≤ fuel) (rest : Bytes) :
    parseMembers parse fuel acc (skipWhitespaces (body ++ '\x7d'.toUInt8 :: rest)) =
      if ((acc ++ new).map Prod.fst).Nodup then some (acc ++ new, rest) else none := by
  induction new generalizing body fuel acc with
  | nil => exact absurd rfl hne
  | cons m ms ih =>
    obtain ⟨name, x⟩ := m
    obtain ⟨fuel, rfl⟩ : ∃ m, fuel = m + 1 := ⟨fuel - 1, by rw [List.length_cons] at hfuel; omega⟩
    obtain ⟨a, q, b, c, u, d, r, rfl, ha, hq, hb, hc, hu, hd, hr⟩ := hmembers
    have hdepth' := max_le_iff.mp hdepth
    -- the name, the colon, and what is behind
    have hstart (tail : Bytes) : Scan.Stops isspace (q ++ tail) := by
      obtain ⟨content, out, rfl, -⟩ := hq
      rw [List.cons_append, Scan.stops_cons]
      decide
    have hcolon (tail : Bytes) : Scan.Stops isspace (':'.toUInt8 :: tail) :=
      Scan.stops_cons.mpr (by decide)
    have hreads (tail : Bytes) (htail : ∀ e, tail.head? = some e → Delimiter e) :
        parse (c ++ (u ++ (d ++ tail))) = some (x, d ++ tail) :=
      hparse _ _ _ ⟨c, u, rfl, hc, hu, hdistinct.1, hdepth'.1,
        follows_of_delimiter (head_spaces_append hd htail)⟩
    have hassoc (tail : Bytes) :
        a ++ (q ++ (b ++ ':'.toUInt8 :: (c ++ (u ++ (d ++ r))))) ++ tail =
          a ++ (q ++ (b ++ ':'.toUInt8 :: (c ++ (u ++ (d ++ (r ++ tail)))))) := by
      simp only [List.append_assoc, List.cons_append]
    have hend : ∀ e, (r ++ '\x7d'.toUInt8 :: rest).head? = some e → Delimiter e := by
      intro e he
      obtain ⟨-, rfl⟩ | ⟨-, r', rfl, -⟩ := hr
      · obtain rfl : '\x7d'.toUInt8 = e := Option.some.inj he
        exact .inr (by decide)
      · obtain rfl : ','.toUInt8 = e := Option.some.inj he
        exact .inr (by decide)
    rw [hassoc, skipWhitespaces_append ha (hstart _), parseMembers,
      getQuotedString_iff_quotedText.mpr ⟨q, rfl, hq⟩]
    simp only
    rw [skipWhitespaces_append hb (hcolon _)]
    simp only [ne_eq, not_true_eq_false, if_false]
    rw [hreads _ hend]
    simp only
    by_cases hmem : name ∈ acc.map Prod.fst
    · have htwice : ¬((acc ++ (name, x) :: ms).map Prod.fst).Nodup := by
        rw [List.map_append, List.nodup_append']
        exact fun h => h.2.2 hmem List.mem_cons_self
      rw [objectAdd_eq_none x hmem, if_neg htwice]
    · have hacc' : ((acc ++ [(name, x)]).map Prod.fst).Nodup := by
        rw [List.map_append, List.nodup_append']
        refine ⟨hacc, List.nodup_singleton _, fun n hn hn' => ?_⟩
        obtain rfl : n = name := List.mem_singleton.mp hn'
        exact hmem hn
      rw [objectAdd_eq_some.mpr ⟨hmem, rfl⟩]
      simp only
      obtain ⟨rfl, rfl⟩ | ⟨hms, r', rfl, hr'⟩ := hr
      · have hstop : Scan.Stops isspace ([] ++ '\x7d'.toUInt8 :: rest) :=
          Scan.stops_cons.mpr (by decide)
        rw [skipWhitespaces_append hd hstop, if_pos hacc']
        rfl
      · have hstop : Scan.Stops isspace (','.toUInt8 :: r' ++ '\x7d'.toUInt8 :: rest) :=
          Scan.stops_cons.mpr (by decide)
        rw [skipWhitespaces_append hd hstop, List.cons_append]
        simp only [if_true]
        rw [ih hr' hms hacc' hdistinct.2 hdepth'.2
          (by rw [List.length_cons] at hfuel; omega), List.append_assoc, List.singleton_append]

end

-- ════════════════════════════════════════════════════════════════════════
-- Values
-- ════════════════════════════════════════════════════════════════════════

theorem token_iff {t s rest : Bytes} : token t s = some rest ↔ s = t ++ rest := by
  rw [token]
  constructor
  · intro h
    split_ifs at h with ht
    have hsplit := List.take_append_drop t.length s
    rw [ht, Option.some.inj h] at hsplit
    exact hsplit.symm
  · rintro rfl
    rw [List.take_left', if_pos rfl, List.drop_left'] <;> rfl

section

variable {lib} {parse : Bytes → Option (JsonValue D × Bytes)} {room : ℕ}

theorem parseObjectValue_sound
    (hparse : ∀ s v rest, parse s = some (v, rest) →
      Reads lib room s v rest ∨ ReadsSign lib room s v rest)
    {s rest : Bytes} {v : JsonValue D} (h : parseObjectValue parse s = some (v, rest)) :
    ∃ t, '\x7b'.toUInt8 :: s = t ++ rest ∧ TextOf lib v t ∧ v.Distinct ∧ v.depth ≤ room + 1 := by
  obtain ⟨ws, hws, hs⟩ := exists_spaces s
  rw [parseObjectValue] at h
  split at h
  case h_1 => cases h
  case h_2 c s' hskip =>
    rw [hskip] at hs
    split_ifs at h with hend
    · obtain ⟨rfl, rfl⟩ := Prod.mk.inj (Option.some.inj h)
      refine ⟨'\x7b'.toUInt8 :: (ws ++ ['\x7d'.toUInt8]), ?_, ⟨ws, rfl, hws⟩,
        ⟨List.nodup_nil, trivial⟩, Nat.le_add_left _ _⟩
      rw [hs, hend]
      simp
    · obtain ⟨⟨members, rest'⟩, hmembers, heq⟩ := Option.map_eq_some_iff.mp h
      obtain ⟨rfl, rfl⟩ := Prod.mk.inj heq
      obtain ⟨new, rfl, -, ⟨body, hbody, htext⟩, hnodup, hdistinct, hdepth⟩ :=
        parseMembers_sound hparse (show (([] : List (Bytes × JsonValue D)).map Prod.fst).Nodup from
          List.nodup_nil) hmembers
      refine ⟨'\x7b'.toUInt8 :: ((ws ++ body) ++ ['\x7d'.toUInt8]), ?_,
        ⟨ws ++ body, rfl, htext.spaces_append lib hws⟩, ⟨hnodup, hdistinct⟩,
        Nat.add_le_add_right hdepth 1⟩
      rw [hs, hbody]
      simp

theorem parseArrayValue_sound
    (hparse : ∀ s v rest, parse s = some (v, rest) →
      Reads lib room s v rest ∨ ReadsSign lib room s v rest)
    {s rest : Bytes} {v : JsonValue D} (h : parseArrayValue parse s = some (v, rest)) :
    ∃ t, '['.toUInt8 :: s = t ++ rest ∧ TextOf lib v t ∧ v.Distinct ∧ v.depth ≤ room + 1 := by
  obtain ⟨ws, hws, hs⟩ := exists_spaces s
  rw [parseArrayValue] at h
  split at h
  case h_1 => cases h
  case h_2 c s' hskip =>
    rw [hskip] at hs
    split_ifs at h with hend
    · obtain ⟨rfl, rfl⟩ := Prod.mk.inj (Option.some.inj h)
      refine ⟨'['.toUInt8 :: (ws ++ [']'.toUInt8]), ?_, ⟨ws, rfl, hws⟩, trivial,
        Nat.le_add_left _ _⟩
      rw [hs, hend]
      simp
    · obtain ⟨⟨items, rest'⟩, hitems, heq⟩ := Option.map_eq_some_iff.mp h
      obtain ⟨rfl, rfl⟩ := Prod.mk.inj heq
      obtain ⟨-, ⟨body, hbody, htext⟩, hdistinct, hdepth⟩ := parseItems_sound hparse hitems
      refine ⟨'['.toUInt8 :: ((ws ++ body) ++ [']'.toUInt8]), ?_,
        ⟨ws ++ body, rfl, htext.spaces_append lib hws⟩, hdistinct, Nat.add_le_add_right hdepth 1⟩
      rw [hs, hbody]
      simp

theorem parseObjectValue_text
    (hparse : ∀ s v rest, Reads lib room s v rest → parse s = some (v, rest))
    {members : List (Bytes × JsonValue D)} {body : Bytes}
    (hmembers : MembersText lib members body) (hdistinct : JsonValue.DistinctMembers members)
    (hdepth : (JsonValue.object members).depth ≤ room + 1) (rest : Bytes) :
    parseObjectValue parse (body ++ '\x7d'.toUInt8 :: rest) =
      if (members.map Prod.fst).Nodup then some (.object members, rest) else none := by
  rw [parseObjectValue]
  cases members with
  | nil =>
    rw [skipWhitespaces_append hmembers (Scan.stops_cons.mpr (by decide))]
    rfl
  | cons m ms =>
    have hlen := hmembers.length_le
    have hparsed : parseMembers parse ((body ++ '\x7d'.toUInt8 :: rest).length + 1) []
        (skipWhitespaces (body ++ '\x7d'.toUInt8 :: rest)) =
          if (([] ++ m :: ms).map Prod.fst).Nodup then some ([] ++ m :: ms, rest) else none :=
      parseMembers_text hparse hmembers (List.cons_ne_nil _ _) (by simp) hdistinct
        (Nat.le_of_add_le_add_right hdepth) (by rw [List.length_append]; omega) rest
    obtain ⟨name, x⟩ := m
    obtain ⟨a, q, b, c, u, d, r, rfl, ha, hq, -⟩ := hmembers
    obtain ⟨content, out, rfl, -⟩ := hq
    simp only [List.append_assoc, List.cons_append] at hparsed ⊢
    rw [skipWhitespaces_append ha (Scan.stops_cons.mpr (by decide))] at hparsed ⊢
    simp only
    rw [if_neg (by decide), hparsed, apply_ite (Option.map _)]
    rfl

theorem parseArrayValue_complete
    (hparse : ∀ s v rest, Reads lib room s v rest → parse s = some (v, rest))
    {items : List (JsonValue D)} {body : Bytes} (hitems : ItemsText lib items body)
    (hdistinct : (JsonValue.array items).Distinct)
    (hdepth : (JsonValue.array items).depth ≤ room + 1)
    (rest : Bytes) :
    parseArrayValue parse (body ++ ']'.toUInt8 :: rest) = some (.array items, rest) := by
  rw [parseArrayValue]
  cases items with
  | nil =>
    rw [skipWhitespaces_append hitems (Scan.stops_cons.mpr (by decide))]
    rfl
  | cons x xs =>
    have hlen := hitems.length_le
    have hparsed : parseItems parse ((body ++ ']'.toUInt8 :: rest).length + 1)
        (skipWhitespaces (body ++ ']'.toUInt8 :: rest)) = some (x :: xs, rest) :=
      parseItems_complete hparse hitems (List.cons_ne_nil _ _) hdistinct
        (Nat.le_of_add_le_add_right hdepth) (by rw [List.length_append]; omega) rest
    obtain ⟨a, u, b, r, rfl, ha, hu, -⟩ := hitems
    obtain ⟨c, u', rfl, hc⟩ := TextOf.kind lib hu
    simp only [List.append_assoc, List.cons_append] at hparsed ⊢
    rw [skipWhitespaces_append ha (Scan.stops_cons.mpr hc.not_space)] at hparsed ⊢
    simp only
    rw [if_neg hc.ne_bracket, hparsed]
    rfl

end

theorem isDigit_notSign {s : Bytes} {c : UInt8} (h : isDigit c = true) :
    scanNumber (c :: s) ≠ none := by
  rw [scanNumber, if_neg (isDigit_ne h (by decide)), scanBody,
    dif_pos (.inl (by rw [List.takeWhile_cons, if_pos h]; exact List.cons_ne_nil _ _))]
  cases scanExponent (scanFraction ((c :: s).dropWhile isDigit)).2 <;> exact Option.some_ne_none _

/-- A numeral behind the first byte that `parse_value` takes for one. -/
theorem Numeral.neg_or_int (n : Numeral) {c : UInt8} {s rest : Bytes}
    (h : c :: s = n.text ++ rest) (hc : c = '-'.toUInt8 ∨ isDigit c = true) :
    n.neg = true ∨ n.int ≠ [] := by
  refine or_iff_not_imp_left.mpr fun hneg hint => ?_
  have hfrac := n.ne_nil.resolve_left (fun hne => hne hint)
  cases hf : n.frac with
  | none =>
    rw [hf] at hfrac
    exact hfrac rfl
  | some ds =>
    rw [Numeral.text, if_neg hneg, Numeral.body, hint, hf] at h
    obtain rfl : c = '.'.toUInt8 := (List.cons.inj h).1
    exact absurd hc (by decide)

/-- `parse_value` reads only values, and minus signs. -/
theorem parseValue_sound {room : ℕ} {s rest : Bytes} {v : JsonValue D}
    (h : parseValue lib room s = some (v, rest)) :
    Reads lib room s v rest ∨ ReadsSign lib room s v rest := by
  induction room generalizing s v rest with
  | zero => cases h
  | succ room ih =>
    obtain ⟨ws, hws, hs⟩ := exists_spaces s
    cases hskip : skipWhitespaces s with
    | nil =>
      rw [parseValue_nil lib hskip] at h
      cases h
    | cons c s' =>
      rw [parseValue_cons lib hskip] at h
      rw [hskip] at hs
      -- a text that is found behind the white space
      have hfound {t : Bytes} (ht : c :: s' = t ++ rest) (htext : TextOf lib v t)
          (hdistinct : v.Distinct) (hdepth : v.depth ≤ room + 1) (hfollows : Follows t rest) :
          Reads lib (room + 1) s v rest :=
        ⟨ws, t, by rw [hs, ht], hws, htext, hdistinct, hdepth, hfollows⟩
      have hleaf : 1 ≤ room + 1 := Nat.le_add_left _ _
      split_ifs at h with hobject harray hstring hboolean hnumber hnull
      · rw [hobject] at hfound
        obtain ⟨t, ht, htext, hdistinct, hdepth⟩ := parseObjectValue_sound (fun _ _ _ => ih) h
        obtain ⟨d, r, rfl, -⟩ := TextOf.kind lib htext
        obtain rfl := (List.cons.inj ht).1
        exact .inl (hfound ht htext hdistinct hdepth (follows_of_head (by decide)))
      · rw [harray] at hfound
        obtain ⟨t, ht, htext, hdistinct, hdepth⟩ := parseArrayValue_sound (fun _ _ _ => ih) h
        obtain ⟨d, r, rfl, -⟩ := TextOf.kind lib htext
        obtain rfl := (List.cons.inj ht).1
        exact .inl (hfound ht htext hdistinct hdepth (follows_of_head (by decide)))
      · obtain ⟨⟨str, rest'⟩, hstr, heq⟩ := Option.map_eq_some_iff.mp h
        obtain ⟨rfl, rfl⟩ := Prod.mk.inj heq
        obtain ⟨q, hq, htext⟩ := getQuotedString_iff_quotedText.mp hstr
        refine .inl (hfound hq htext trivial hleaf ?_)
        obtain ⟨content, out, rfl, -⟩ := htext
        exact follows_of_head (by decide)
      · rw [parseBooleanValue] at h
        split at h
        case h_1 r hr =>
          obtain ⟨rfl, rfl⟩ := Prod.mk.inj (Option.some.inj h)
          exact .inl (hfound (token_iff.mp hr) rfl trivial hleaf (follows_of_head (by decide)))
        case h_2 =>
          obtain ⟨r, hr, heq⟩ := Option.map_eq_some_iff.mp h
          obtain ⟨rfl, rfl⟩ := Prod.mk.inj heq
          exact .inl (hfound (token_iff.mp hr) rfl trivial hleaf (follows_of_head (by decide)))
      · obtain ⟨n, hn, hv, hends, hhex⟩ | ⟨heinval, rfl, hrest, hscan, hhex⟩ :=
          (parseNumberValue_iff lib).mp h
        · refine .inl ?_
          have hshape := n.neg_or_int hn hnumber
          have hfollows : Follows n.text rest := by
            intro m hm
            rw [scanNumber_text] at hm
            obtain rfl := (Prod.mk.inj (Option.some.inj hm)).1
            exact ⟨hends, hhex⟩
          obtain ⟨u, rfl⟩ | ⟨x, rfl⟩ := n.value_kind lib hv
          · exact hfound hn ⟨n, rfl, hv, hshape⟩ trivial hleaf hfollows
          · exact hfound hn ⟨n, rfl, hv, hshape⟩ trivial hleaf hfollows
        · have hminus : c = '-'.toUInt8 := hnumber.resolve_right fun hd =>
            isDigit_notSign hd hscan
          rw [hrest] at hscan hhex
          refine .inr ⟨heinval, rfl, Nat.succ_pos _, ws, by rw [hs, hrest], hws, ?_, hscan, hhex⟩
          rw [← hrest, hminus]
          rfl
      · obtain ⟨r, hr, heq⟩ := Option.map_eq_some_iff.mp h
        obtain ⟨rfl, rfl⟩ := Prod.mk.inj heq
        exact .inl (hfound (token_iff.mp hr) rfl trivial hleaf (follows_of_head (by decide)))

theorem parseNumberValue_complete {v : JsonValue D} {t rest : Bytes} (h : NumberText lib v t)
    (hfollows : Follows t rest) : parseNumberValue lib (t ++ rest) = some (v, rest) := by
  obtain ⟨n, rfl, hv, -⟩ := h
  obtain ⟨hends, hhex⟩ := hfollows n (scanNumber_text n)
  exact (parseNumberValue_iff lib).mpr (.inl ⟨n, rfl, hv, hends, hhex⟩)

/-- The branch of `parse_value` for a number. -/
theorem parseValue_number {room : ℕ} {s : Bytes} {c : UInt8} {r : Bytes}
    (hskip : skipWhitespaces s = c :: r) (hc : c = '-'.toUInt8 ∨ isDigit c = true) :
    parseValue lib (room + 1) s = parseNumberValue lib (c :: r) := by
  have hne {d : UInt8} (hd : isDigit d = false) (hminus : d ≠ '-'.toUInt8) : c ≠ d := by
    rcases hc with rfl | hc
    · exact hminus.symm
    · exact isDigit_ne hc hd
  rw [parseValue_cons lib hskip, if_neg (hne (by decide) (by decide)),
    if_neg (hne (by decide) (by decide)), if_neg (hne (by decide) (by decide)),
    if_neg (not_or.mpr ⟨hne (by decide) (by decide), hne (by decide) (by decide)⟩), if_pos hc]

section

variable {lib} {room : ℕ} {s r : Bytes}

/-- The other branches of `parse_value`, by the byte in front. -/
theorem parseValue_object (h : skipWhitespaces s = '\x7b'.toUInt8 :: r) :
    parseValue lib (room + 1) s = parseObjectValue (parseValue lib room) r := by
  rw [parseValue_cons lib h]
  rfl

theorem parseValue_array (h : skipWhitespaces s = '['.toUInt8 :: r) :
    parseValue lib (room + 1) s = parseArrayValue (parseValue lib room) r := by
  rw [parseValue_cons lib h]
  rfl

theorem parseValue_string (h : skipWhitespaces s = '"'.toUInt8 :: r) :
    parseValue lib (room + 1) s = parseStringValue ('"'.toUInt8 :: r) := by
  rw [parseValue_cons lib h]
  rfl

theorem parseValue_boolean {c : UInt8} (h : skipWhitespaces s = c :: r)
    (hc : c = 'f'.toUInt8 ∨ c = 't'.toUInt8) :
    parseValue lib (room + 1) s = parseBooleanValue (c :: r) := by
  rw [parseValue_cons lib h]
  rcases hc with rfl | rfl <;> rfl

theorem parseBooleanValue_true (h : token trueToken s = some r) :
    parseBooleanValue s = some ((.boolean true : JsonValue D), r) := by
  rw [parseBooleanValue, h]

theorem parseBooleanValue_false (htrue : token trueToken s = none)
    (h : token falseToken s = some r) :
    parseBooleanValue s = some ((.boolean false : JsonValue D), r) := by
  rw [parseBooleanValue, htrue, h]
  rfl

theorem parseValue_null (h : skipWhitespaces s = 'n'.toUInt8 :: r) :
    parseValue lib (room + 1) s = parseNullValue ('n'.toUInt8 :: r) := by
  rw [parseValue_cons lib h]
  rfl

end

/-- `parse_value` reads every value. -/
theorem parseValue_complete {room : ℕ} {s rest : Bytes} {v : JsonValue D}
    (h : Reads lib room s v rest) : parseValue lib room s = some (v, rest) := by
  induction room generalizing s v rest with
  | zero =>
    obtain ⟨-, -, -, -, -, -, hdepth, -⟩ := h
    have hpos := v.depth_pos
    omega
  | succ room ih =>
    obtain ⟨ws, t, rfl, hws, htext, hdistinct, hdepth, hfollows⟩ := h
    have hskip : skipWhitespaces (ws ++ (t ++ rest)) = t ++ rest := by
      obtain ⟨c, r, rfl, hc⟩ := TextOf.kind lib htext
      exact skipWhitespaces_append hws (Scan.stops_cons.mpr hc.not_space)
    cases v with
    | null =>
      obtain rfl : t = nullToken := htext
      rw [parseValue_null hskip]
      exact congrArg (Option.map _) (token_iff.mpr rfl)
    | boolean b =>
      cases b with
      | true =>
        obtain rfl : t = trueToken := htext
        rw [parseValue_boolean hskip (.inr rfl)]
        exact parseBooleanValue_true (token_iff.mpr rfl)
      | false =>
        obtain rfl : t = falseToken := htext
        rw [parseValue_boolean hskip (.inl rfl)]
        exact parseBooleanValue_false rfl (token_iff.mpr rfl)
    | number x =>
      obtain ⟨c, r, rfl, hc⟩ := NumberText.head lib htext
      rw [parseValue_number lib hskip hc]
      exact parseNumberValue_complete lib htext hfollows
    | uint u =>
      obtain ⟨c, r, rfl, hc⟩ := NumberText.head lib htext
      rw [parseValue_number lib hskip hc]
      exact parseNumberValue_complete lib htext hfollows
    | string str =>
      have hread : getQuotedString (t ++ rest) = some (str, rest) :=
        getQuotedString_iff_quotedText.mpr ⟨t, rfl, htext⟩
      obtain ⟨content, out, rfl, -⟩ := htext
      rw [parseValue_string hskip]
      exact congrArg (Option.map _) hread
    | array items =>
      obtain ⟨body, rfl, hitems⟩ := htext
      have happend : body ++ [']'.toUInt8] ++ rest = body ++ ']'.toUInt8 :: rest := by simp
      rw [parseValue_array hskip]
      change parseArrayValue _ (body ++ [']'.toUInt8] ++ rest) = _
      rw [happend]
      exact parseArrayValue_complete (fun _ _ _ => ih) hitems hdistinct hdepth rest
    | object members =>
      obtain ⟨body, rfl, hmembers⟩ := htext
      have happend : body ++ ['\x7d'.toUInt8] ++ rest = body ++ '\x7d'.toUInt8 :: rest := by simp
      rw [parseValue_object hskip]
      change parseObjectValue _ (body ++ ['\x7d'.toUInt8] ++ rest) = _
      rw [happend]
      rw [parseObjectValue_text (fun _ _ _ => ih) hmembers hdistinct.2 hdepth rest,
        if_pos hdistinct.1]

theorem parseValue_sign {room : ℕ} {s rest : Bytes} {v : JsonValue D}
    (h : ReadsSign lib room s v rest) : parseValue lib room s = some (v, rest) := by
  obtain ⟨heinval, rfl, hroom, ws, rfl, hws, hhead, hscan, hhex, hspecial⟩ := h
  obtain ⟨room, rfl⟩ : ∃ m, room = m + 1 := ⟨room - 1, by omega⟩
  obtain ⟨r, rfl⟩ := List.head?_eq_some_iff.mp hhead
  have hskip : skipWhitespaces (ws ++ '-'.toUInt8 :: r) = '-'.toUInt8 :: r :=
    skipWhitespaces_append hws (Scan.stops_cons.mpr (by decide))
  rw [parseValue_number lib hskip (.inl rfl)]
  exact (parseNumberValue_iff lib).mpr (.inr ⟨heinval, rfl, rfl, hscan, hhex, hspecial⟩)

/-- What `parse_value` reads at the start of a document. -/
theorem parseValue_iff {room : ℕ} {s rest : Bytes} {v : JsonValue D} :
    parseValue lib room s = some (v, rest) ↔
      Reads lib room s v rest ∨ ReadsSign lib room s v rest :=
  ⟨parseValue_sound lib, fun h => h.elim (parseValue_complete lib) (parseValue_sign lib)⟩

/-- An object with two members of one name is not read. -/
theorem parseValue_duplicate {room : ℕ} {members : List (Bytes × JsonValue D)} {t rest : Bytes}
    (ht : TextOf lib (.object members) t) (hdistinct : JsonValue.DistinctMembers members)
    (hdepth : (JsonValue.object members).depth ≤ room) (h : ¬(members.map Prod.fst).Nodup) :
    parseValue lib room (t ++ rest) = none := by
  obtain ⟨body, rfl, hmembers⟩ := ht
  obtain ⟨room, rfl⟩ : ∃ m, room = m + 1 :=
    ⟨room - 1, by have := (JsonValue.object members).depth_pos; omega⟩
  have hskip : skipWhitespaces ('\x7b'.toUInt8 :: (body ++ ['\x7d'.toUInt8]) ++ rest) =
      '\x7b'.toUInt8 :: (body ++ '\x7d'.toUInt8 :: rest) := by
    rw [List.cons_append, List.append_assoc, List.singleton_append]
    exact skipWhitespaces_append spaces_nil (Scan.stops_cons.mpr (by decide))
  rw [parseValue_object hskip, parseObjectValue_text
    (fun _ _ _ => parseValue_complete lib) hmembers hdistinct hdepth rest, if_neg h]

end DeviceSdk.Parson

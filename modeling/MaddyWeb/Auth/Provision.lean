import MaddyWeb.Auth.Store
import Mathlib.Data.List.Nodup

/-!
# Provisioning

The recovery codes that are shown are stored as they were drawn, so an account whose
address is new is provisioned whatever was drawn for it.
-/

namespace MaddyWeb.Auth

open MaddyWeb.Library MaddyWeb.Library.Text

theorem range_of_isHexDigit {c : Char} (h : isHexDigit c = true) :
    (0x30 ≤ c.toNat ∧ c.toNat ≤ 0x39) ∨ (0x61 ≤ c.toNat ∧ c.toNat ≤ 0x66) := by
  simpa [isHexDigit, Char.le_def, UInt32.le_iff_toNat_le] using h

/-! ## Recovery codes -/

/-- The groups of four digits that are shown. -/
def groups (code : Hex32) : List (List Char) :=
  (List.range 8).map fun i => (code.text.toList.drop (4 * i)).take 4

theorem isHexDigit_of_mem_groups {code : Hex32} {group : List Char} (hgroup : group ∈ groups code)
    {c : Char} (hc : c ∈ group) : isHexDigit c = true := by
  obtain ⟨i, -, rfl⟩ := List.mem_map.mp hgroup
  have hhex := (Bool.and_eq_true_iff.mp code.isHex).2
  exact List.all_eq_true.mp hhex c (List.mem_of_mem_drop (List.mem_of_mem_take hc))

/-- A code that is shown has no blank and no capital letter. -/
theorem range_of_mem_shown {code : Hex32} {c : Char}
    (hc : c ∈ List.intercalate ['-'] (groups code)) :
    0x20 < c.toNat ∧ c.toNat < 0x80 ∧ ¬(0x41 ≤ c.toNat ∧ c.toNat ≤ 0x5A) := by
  rcases mem_intercalate hc with rfl | ⟨group, hgroup, hc⟩
  · decide
  · have := range_of_isHexDigit (isHexDigit_of_mem_groups hgroup hc)
    omega

theorem filter_shown (code : Hex32) :
    (List.intercalate ['-'] (groups code)).filter (· != '-') = code.text.toList := by
  have hlength : code.text.toList.length = 32 :=
    beq_iff_eq.mp (Bool.and_eq_true_iff.mp code.isHex).1
  rw [filter_intercalate]
  · unfold groups
    rw [flatten_groups, List.take_of_length_le (by omega)]
  · simp
  · intro group hgroup c hc
    have := range_of_isHexDigit (isHexDigit_of_mem_groups hgroup hc)
    rw [bne_iff_ne]
    rintro rfl
    revert this
    decide

/-- A code that is shown comes back as the one that was drawn. -/
theorem normalizeRecoveryCode_shown (code : Hex32) :
    normalizeRecoveryCode (String.ofList (List.intercalate ['-'] (groups code))) =
      some code.text := by
  have hstrip : strStrip (List.intercalate ['-'] (groups code)) =
      List.intercalate ['-'] (groups code) := by
    apply stripBy_of_no_blank
    intro c hc
    have := range_of_mem_shown hc
    unfold isSpace
    simp
    omega
  have hlower : asciiLower (List.intercalate ['-'] (groups code)) =
      List.intercalate ['-'] (groups code) := by
    unfold asciiLower
    rw [List.map_congr_left, List.map_id]
    intro c hc
    have := range_of_mem_shown hc
    rw [if_neg (by simp; omega)]
    rfl
  unfold normalizeRecoveryCode
  rw [String.toList_ofList, hstrip, hlower, filter_shown, String.ofList_toList]
  exact if_pos code.isHex

theorem generateRecoveryCodes_normalized (random : Random) :
    (generateRecoveryCodes random).map normalizeRecoveryCode =
      (random.recoveryCodes.codes.map (·.text)).map some := by
  have hshown : generateRecoveryCodes random = random.recoveryCodes.codes.map fun code =>
      String.ofList (List.intercalate ['-'] (groups code)) := rfl
  rw [hshown, List.map_map, List.map_map]
  apply List.map_congr_left
  intro code _
  rw [Function.comp_apply, normalizeRecoveryCode_shown]
  rfl

variable {env : Env} {accountId : String} {now : Nat} {db : Db}

theorem storeRecoveryCode_eq {code text : String} (hcode : normalizeRecoveryCode code = some text)
    (hnone : ∀ row ∈ db.recoveryCodes, row.accountId = accountId →
      row.codeDigest ≠ env.recoveryDigest accountId text) :
    storeRecoveryCode env accountId now code db =
      (.ok (), { db with
        recoveryCodes :=
          db.recoveryCodes ++ [⟨accountId, env.recoveryDigest accountId text, now⟩] }) := by
  unfold storeRecoveryCode requireRecoveryCode
  rw [Exec.require_const_bind hcode, Exec.inspect_bind]
  apply Exec.ensure_bind_of
  · rw [Bool.not_eq_true', List.any_eq_false]
    intro row hrow
    rw [Bool.and_eq_true, beq_iff_eq, beq_iff_eq, not_and]
    exact hnone row hrow
  · rfl

/-- The codes are stored one after the other. -/
theorem storeRecoveryCodes_eq {codes texts : List String}
    (hcodes : codes.map normalizeRecoveryCode = texts.map some)
    (hdistinct : (texts.map (env.recoveryDigest accountId)).Nodup)
    (hnone : ∀ row ∈ db.recoveryCodes, row.accountId = accountId →
      row.codeDigest ∉ texts.map (env.recoveryDigest accountId)) :
    storeRecoveryCodes env accountId codes now db =
      (.ok (), { db with
        recoveryCodes := db.recoveryCodes ++
          texts.map fun text => ⟨accountId, env.recoveryDigest accountId text, now⟩ }) := by
  unfold storeRecoveryCodes
  induction codes generalizing texts db with
  | nil =>
      obtain rfl := List.map_eq_nil_iff.mp hcodes.symm
      rw [List.map_nil, List.append_nil]
      rfl
  | cons code codes ih =>
      cases texts with
      | nil =>
          rw [List.map_cons, List.map_nil] at hcodes
          exact absurd hcodes (List.cons_ne_nil _ _)
      | cons text texts =>
          rw [List.map_cons, List.map_cons, List.cons.injEq] at hcodes
          rw [List.map_cons, List.nodup_cons] at hdistinct
          have hstored := @storeRecoveryCode_eq env accountId now db code text hcodes.1
            fun row hrow hmine heq => hnone row hrow hmine (heq ▸ List.mem_cons_self)
          show (storeRecoveryCode env accountId now code >>= fun _ =>
            codes.forM (storeRecoveryCode env accountId now)) db = _
          rw [Exec.bind_of_ok hstored, ih hcodes.2 hdistinct.2]
          · rw [List.append_assoc]
            rfl
          · intro row hrow hmine
            rcases List.mem_append.mp hrow with hrow | hrow
            · exact fun hmem => hnone row hrow hmine (List.mem_cons_of_mem _ hmem)
            · cases List.mem_singleton.mp hrow
              exact hdistinct.1

/-! ## Accounts -/

theorem nodup_recoveryDigests (random : Random)
    (hinjective : Function.Injective (env.recoveryDigest accountId)) :
    ((random.recoveryCodes.codes.map (·.text)).map (env.recoveryDigest accountId)).Nodup := by
  refine List.Nodup.map hinjective (List.Nodup.map ?_ random.recoveryCodes.nodup)
  rintro ⟨_, _⟩ ⟨_, _⟩ rfl
  rfl

theorem newAccountId_eq {random : Random}
    (hunused : db.accountById (random.accountId 0 0).text = none) :
    newAccountId random 0 db = (.ok (random.accountId 0 0).text, db) := by
  have hdrawn : firstUnused (random.accountId 0) (fun id => (db.accountById id.text).isSome) =
      some (random.accountId 0 0) := by
    unfold firstUnused allocationAttempts
    rw [List.range_succ_eq_map, List.map_cons, List.find?_cons_of_pos]
    show (!(db.accountById (random.accountId 0 0).text).isSome) = true
    rw [hunused]
    rfl
  unfold newAccountId Exec.require
  dsimp only
  rw [hdrawn]
  rfl

theorem requiredAccount_added {rows : List AccountRow} {row : AccountRow}
    (haccounts : db.accounts = rows ++ [row])
    (hnew : rows.find? (·.accountId == row.accountId) = none) :
    requiredAccount row.accountId db = (.ok (accountFromRow row), db) := by
  have hfound : db.accountById row.accountId = some row := by
    unfold Db.accountById
    rw [haccounts, List.find?_append, hnew, Option.none_or, List.find?_singleton]
    exact if_pos (beq_self_eq_true row.accountId)
  exact Exec.require_bind_some hfound

/-- Provisioning for a new address, with an identifier that no row has. -/
theorem provisionActiveAccount_eq {random : Random} {email canonical : String} {role : Role}
    {required : Bool} (hemail : Identity.canonicalizeEmail email = some canonical)
    (hnew : db.accountByEmail canonical = none)
    (hunused : db.accountById (random.accountId 0 0).text = none)
    (hnone : ∀ row ∈ db.recoveryCodes, row.accountId ≠ (random.accountId 0 0).text)
    (hinjective : Function.Injective (env.recoveryDigest (random.accountId 0 0).text)) :
    let accountId := (random.accountId 0 0).text
    let row := (newAccountRow accountId canonical role required now).activated (random.nonce 0)
      (env.encrypt (random.nonce 0) random.secret accountId canonical)
    provisionActiveAccount env random (some now) email role required db =
      (.ok (accountFromRow row, random.secret, generateRecoveryCodes random),
        { db with
          accounts := db.accounts ++ [row]
          recoveryCodes := db.recoveryCodes ++ (random.recoveryCodes.codes.map (·.text)).map
            fun text => ⟨accountId, env.recoveryDigest accountId text, now⟩ }) := by
  intro accountId row
  have hstored := @storeRecoveryCodes_eq env accountId now (db.insertAccount row) _ _
    (generateRecoveryCodes_normalized random) (nodup_recoveryDigests random hinjective)
    fun other hother hmine => absurd hmine (hnone other hother)
  unfold provisionActiveAccount requireEmail readClock
  rw [Exec.require_const_bind hemail, Exec.require_const_bind rfl]
  apply Exec.atomically_of_ok
  rw [Exec.inspect_bind]
  apply Exec.ensure_bind_of (by rw [hnew]; rfl)
  rw [Exec.bind_of_ok (newAccountId_eq hunused), Exec.update_bind]
  apply (Exec.bind_of_ok hstored).trans
  apply (Exec.bind_of_ok (@requiredAccount_added _ db.accounts row rfl hunused)).trans
  rfl

/-! ## An account of the small environment -/

/-- The only account of this database was provisioned with the number `n`. -/
def provisionedDb (n : Fin 16) (now : Nat) : Db where
  accounts := [(newAccountRow (sampleHex n).text "ann@example.org" .user false now).activated []
    (List.replicate 20 0)]
  recoveryCodes := ((sampleRandom n).recoveryCodes.codes.map (·.text)).map fun text =>
    ⟨(sampleHex n).text, (sampleHex n).text ++ text, now⟩

theorem provisionActiveAccount_sample (hrecovery : env.recoveryDigest = sampleEnv.recoveryDigest)
    (hencrypt : env.encrypt = sampleEnv.encrypt) (n : Fin 16) :
    (provisionActiveAccount env (sampleRandom n) (some now) "ann@example.org" .user false {}).2 =
      provisionedDb n now := by
  have hemail : Identity.canonicalizeEmail "ann@example.org" = some "ann@example.org" := by
    decide +kernel
  rw [provisionActiveAccount_eq hemail rfl rfl fun _ hrow => absurd hrow List.not_mem_nil]
  · rw [hrecovery, hencrypt]
    rfl
  · rw [hrecovery]
    intro first second heq
    exact (String.append_right_inj _).mp heq

theorem after_provision (hrecovery : env.recoveryDigest = sampleEnv.recoveryDigest)
    (hencrypt : env.encrypt = sampleEnv.encrypt) (n : Fin 16) (later : Option Nat) :
    ({} : Db).after env ⟨.provisionActiveAccount "ann@example.org" .user false, sampleRandom n,
      some now, later⟩ = provisionedDb n now :=
  (replyWith_state _ _ _).trans (provisionActiveAccount_sample hrecovery hencrypt n)

end MaddyWeb.Auth

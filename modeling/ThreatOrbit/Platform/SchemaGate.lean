import ThreatOrbit.Lib.Python

/-
  The start of the dashboard on a database: the schema, the
  columns it has gained since, the passes that fill them, and
  the gate that refuses a database newer than the code.

  Statements of the schema take effect at once. What the
  passes write is part of a transaction, which is lost when
  the gate refuses.
-/

---- The Database And Its Connection

namespace ThreatOrbit.Platform

open Lib

/- A row, by the names of its columns. -/
abbrev StoredRow := List (Str × SqlVal)

/- The columns and the rows of a table. -/
structure StoredTable where
  columns : List Str
  rows : List StoredRow

/- The tables by name, and the table of each index. -/
structure Store where
  tables : Str → Option StoredTable
  indexes : Str → Option Str

/- A table put in place of one, or taken away. -/
def Store.put
    (db : Store)
    (name : Str)
    (table : Option StoredTable) : Store where
  tables := fun n => if n = name then table else db.tables n
  indexes := db.indexes

theorem Store.put_other
    {db : Store} {name n : Str}
    (hOther : n ≠ name) (table : Option StoredTable) :
    (db.put name table).tables n = db.tables n :=
  if_neg hOther

/- A connection: what is on disk, and what an open transaction
would put there. -/
structure Conn where
  committed : Store
  pending : Option Store

def Conn.view (c : Conn) : Store :=
  c.pending.getD c.committed

/- A statement that defines data, and that takes effect at once
outside a transaction. -/
def Conn.define (c : Conn) (effect : Store → Store) : Conn :=
  match c.pending with
  | none => ⟨effect c.committed, none⟩
  | some db => ⟨c.committed, some (effect db)⟩

/- A statement that writes rows, and that opens a transaction. -/
def Conn.write (c : Conn) (effect : Store → Store) : Conn :=
  ⟨c.committed, some (effect c.view)⟩

/- `conn.commit()`. -/
def Conn.commit (c : Conn) : Conn :=
  ⟨c.view, none⟩

/- `conn.close()`: what is left on disk. -/
def Conn.close (c : Conn) : Store :=
  c.committed

---- The Schema

/- A statement of `SCHEMA`, by its names. -/
inductive SchemaStatement (ν : Type) where
  | table (name : ν) (columns : List ν)
  | index (name owner : ν) (columns : List ν)
  | dropTable (name : ν)
  | dropIndex (name : ν)

def SchemaStatement.map
    {ν μ : Type}
    (f : ν → μ) : SchemaStatement ν → SchemaStatement μ
| .table name columns => .table (f name) (columns.map f)
| .index name owner columns =>
    .index (f name) (f owner) (columns.map f)
| .dropTable name => .dropTable (f name)
| .dropIndex name => .dropIndex (f name)

/- A column that a table has gained, with its default. -/
structure Migration (ν : Type) where
  table : ν
  column : ν
  default : SqlVal

def Migration.map
    {ν μ : Type}
    (f : ν → μ)
    (m : Migration ν) : Migration μ where
  table := f m.table
  column := f m.column
  default := m.default

/- The statements of `SCHEMA`. -/
def schemaText : List (SchemaStatement String) :=
  [.table "users" ["id", "email", "name", "role", "status",
      "password_hash", "password_salt", "avatar_color",
      "mfa_enabled", "last_login", "created_at", "org_id"],
   .table "orgs" ["id", "name", "slug", "plan", "status",
      "created_at"],
   .table "roles" ["id", "name", "description", "capabilities",
      "created_at", "org_id"],
   .table "assets" ["id", "name", "type", "value", "criticality",
      "status", "risk_score", "last_scan", "alerts", "cves",
      "open_ports", "os", "owner", "patch_age", "tags", "uptime",
      "created_at", "software"],
   .table "cve_catalogue" ["cve", "product", "cvss", "severity",
      "vstart", "vstart_incl", "vend", "vend_incl", "fixed",
      "summary", "kev", "exploit", "source", "updated_at"],
   .table "vuln_findings" ["id", "asset_id", "cve", "product",
      "version", "severity", "cvss", "fixed_in", "summary",
      "status", "found_at", "kev", "exploit"],
   .table "alerts" ["id", "ts", "title", "severity", "status",
      "disposition", "owner", "risk_score", "rule_id",
      "rule_name", "mitre_tactic", "mitre_tactic_id",
      "mitre_tech", "mitre_tech_id", "src_ip", "src_country",
      "src_port", "src_hostname", "src_asn", "dest_ip",
      "dest_port", "dest_service", "username", "hostname",
      "host_criticality", "process_name", "cmd_line",
      "description", "raw_log", "event_count", "ti_hits",
      "ti_value", "bytes_out", "detect_latency_sec",
      "ack_latency_sec", "respond_latency_sec"],
   .table "detection_rules" ["id", "name", "category", "severity",
      "mitre_tactic", "mitre_tactic_id", "mitre_tech_id",
      "mitre_tech", "hits_24h", "fired_last_7d", "fp_rate",
      "status", "source", "last_fired", "created", "updated_by",
      "description", "kql", "suppression_window",
      "severity_override", "tags"],
   .table "log_sources" ["id", "name", "type", "host", "status",
      "eps_avg", "eps_peak", "last_event", "total_events_24h",
      "latency_ms", "parse_success", "format", "tags"],
   .table "saved_hunts" ["id", "domain", "name", "description",
      "query", "technique", "last_run", "hit_count", "author",
      "status", "progress", "created"],
   .table "cases" ["id", "title", "type", "severity", "status",
      "owner", "playbook", "sla_hours", "created", "updated",
      "alert_count", "description", "entities", "war_room",
      "tasks", "evidence"],
   .table "case_escalations" ["id", "case_id", "from_tier",
      "to_tier", "from_owner", "to_owner", "note", "actor", "ts"],
   .table "playbooks" ["id", "name", "category", "trigger",
      "trigger_type", "description", "runs", "success_rate",
      "avg_time", "last_run", "last_run_status", "status",
      "enabled", "steps", "trigger_match"],
   .table "playbook_versions" ["id", "playbook_id", "version",
      "steps", "trigger_match", "author", "note", "created_at"],
   .table "playbook_runs" ["id", "playbook_id", "playbook_name",
      "ts", "finished", "status", "trigger", "actor", "alert_id",
      "current_step", "context", "steps"],
   .table "integrations" ["id", "name", "vendor", "category",
      "status", "last_sync", "actions_run", "avg_response_ms",
      "description", "actions", "enabled", "base_url", "api_key"],
   .table "integration_actions" ["id", "integration_id", "action",
      "target", "status", "mode", "detail", "actor", "ts"],
   .table "threat_actors" ["id", "name", "aliases", "origin",
      "flag", "type", "motivations", "active", "first_seen",
      "last_seen", "sophistication", "threat_level", "sectors",
      "ttps", "malware", "ioc_count", "campaign_count",
      "recent_activity", "description", "campaigns", "iocs"],
   .table "iocs" ["id", "type", "value", "threat_type",
      "confidence", "severity", "source", "actor", "first_seen",
      "last_seen", "tags", "status", "sightings", "host",
      "imported_at"],
   .table "observable_sources" ["value", "source_id",
      "first_seen", "last_seen", "raw_label", "confidence"],
   .table "intel_sources" ["id", "name", "kind", "reliability",
      "reliability_reason", "reliability_set_by", "url",
      "served_via", "last_status", "last_status_detail",
      "last_ok", "first_seen", "last_seen", "value_count"],
   .table "asn_ranges" ["family", "start_hex", "end_hex", "asn",
      "country", "description"],
   .table "ioc_verdicts" ["id", "ioc_value", "org_id", "verdict",
      "reason", "analyst", "ts"],
   .table "dns_observations" ["name", "address", "addr_hex",
      "first_seen", "last_seen", "times_seen", "observed_via"],
   .table "decay_rules" ["id", "name", "applies_to",
      "half_life_days", "revoke_score", "max_age_half_lives",
      "reaction_points", "enabled", "builtin", "created_at"],
   .table "ioc_sightings" ["id", "ioc_id", "ts", "source",
      "context"],
   .table "ioc_imports" ["id", "source", "method", "imported",
      "duplicates", "skipped", "status", "actor", "ts"],
   .table "connector_works" ["id", "connector_id", "connector",
      "status", "expected", "processed", "imported", "duplicates",
      "skipped", "message", "started_at", "updated_at"],
   .index "idx_works_status" "connector_works" ["status",
      "started_at"],
   .table "intel_reports" ["id", "title", "tlp", "status",
      "summary", "body", "actors", "iocs", "tags", "author",
      "created_at", "updated_at", "org_id"],
   .table "ioc_enrichments" ["id", "ioc_value", "provider",
      "verdict", "summary", "data", "ts"],
   .dropTable "feeds",
   .table "api_keys" ["id", "name", "prefix", "secret_hash",
      "scope", "last_used", "created_at", "created_by",
      "revoked"],
   .table "api_key_usage" ["key_id", "day", "count"],
   .table "settings" ["key", "value"],
   .table "leader_lease" ["name", "holder", "expires_at"],
   .table "jobs" ["id", "kind", "status", "progress",
      "created_at", "updated_at", "meta"],
   .table "audit_log" ["id", "ts", "actor", "action", "target",
      "detail"],
   .table "scans" ["id", "ts", "target", "type", "verdict",
      "score", "engines", "actor"],
   .table "suppressions" ["id", "rule_id", "field", "value",
      "mode", "reason", "hits", "created_at", "created_by"],
   .table "malware_families" ["name", "label", "role", "aliases",
      "description", "operator", "operator_aliases",
      "operator_reason", "commodity", "since", "edited_by",
      "edited_at"],
   .table "attack_technique" ["id", "name", "tactics", "url",
      "description", "is_subtechnique"],
   .table "attack_group" ["id", "name", "aliases", "url",
      "description", "citations"],
   .table "attack_software" ["family", "id", "name", "url",
      "kind", "description"],
   .table "attack_family_technique" ["family", "technique_id"],
   .table "attack_family_group" ["family", "group_id"],
   .table "attack_group_technique" ["group_id", "technique_id"],
   .table "attack_group_name" ["norm_key", "group_id"],
   .table "attack_campaign" ["id", "name", "aliases", "url",
      "description", "citations", "first_seen", "last_seen"],
   .table "attack_campaign_group" ["campaign_id", "group_id"],
   .table "attack_campaign_family" ["campaign_id", "family"],
   .table "attack_tactic" ["shortname", "name", "position"],
   .table "attack_release" ["version", "url", "fetched_at"],
   .table "notifications" ["id", "ts", "type", "severity",
      "title", "detail", "link", "read"],
   .index "idx_notif_ts" "notifications" ["ts"],
   .index "idx_notif_group" "notifications" ["group_key", "ts"],
   .table "report_schedules" ["id", "kind", "period", "cadence",
      "webhook_url", "enabled", "last_run", "created_at",
      "created_by"],
   .table "saved_views" ["id", "section", "name", "filters",
      "owner", "created_at"],
   .table "events" ["id", "ts", "category", "event_type",
      "src_ip", "dest_ip", "dest_port", "username", "hostname",
      "dest_host", "url", "process_name", "action", "bytes_out",
      "country", "severity_hint", "mitre_tech_id", "raw",
      "source", "processed", "ti_checked"],
   .index "idx_events_ts" "events" ["ts"],
   .index "idx_events_proc" "events" ["processed"],
   .index "idx_events_host" "events" ["hostname"],
   .index "idx_events_dest_host" "events" ["dest_host"],
   .index "idx_events_source" "events" ["source"],
   .index "idx_events_ti" "events" ["ti_checked"],
   .table "dark_web_findings" ["id", "ts", "category", "severity",
      "source", "title", "entity", "actor", "detail", "url",
      "status"],
   .table "connectors" ["id", "name", "kind", "url", "api_key",
      "auth_header", "enabled", "interval_minutes", "field_map",
      "status", "last_run", "last_error", "indicator_count",
      "builtin", "created_at", "created_by"],
   .table "webhooks" ["id", "url", "events", "status",
      "last_delivery", "created_at", "created_by"],
   .table "sessions" ["id", "user_id", "created_at", "last_seen",
      "user_agent", "ip", "revoked"],
   .table "break_glass" ["id", "user_id", "reason",
      "activated_by", "activated_at", "expires_at",
      "deactivated_at", "org_id"],
   .table "user_org_roles" ["user_id", "org_id", "role",
      "granted_by", "granted_at"],
   .table "saml_replay" ["assertion_id", "expires_at"],
   .table "audit_sink_cursor" ["id", "last_id", "updated"],
   .index "idx_scans_ts" "scans" ["ts"],
   .index "idx_alerts_ts" "alerts" ["ts"],
   .index "idx_alerts_sev" "alerts" ["severity"],
   .index "idx_alerts_status" "alerts" ["status"],
   .index "idx_cases_status" "cases" ["status"],
   .index "idx_assets_crit" "assets" ["criticality"],
   .index "idx_iocs_type" "iocs" ["type"],
   .index "idx_alerts_ts" "alerts" ["ts"],
   .index "idx_alerts_sev_status" "alerts" ["severity", "status"],
   .index "idx_alerts_host" "alerts" ["hostname"],
   .index "idx_alerts_src" "alerts" ["src_ip"],
   .index "idx_alerts_user" "alerts" ["username"],
   .index "idx_alerts_ti_value" "alerts" ["ti_value"],
   .index "idx_iocs_value" "iocs" ["value"],
   .index "idx_iocs_status" "iocs" ["status"],
   .index "idx_iocs_imported_at" "iocs" ["imported_at"],
   .index "idx_iocs_actor" "iocs" ["actor"],
   .index "idx_iocs_last_seen" "iocs" ["last_seen", "id"],
   .index "idx_works_started" "connector_works" ["started_at"],
   .index "idx_jobs_created" "jobs" ["created_at"],
   .index "idx_ioc_imports_ts" "ioc_imports" ["ts"],
   .index "idx_iocs_sev_conf" "iocs" ["severity", "confidence"],
   .index "idx_iocs_score_recent" "iocs" ["intel_score",
      "last_seen", "id"],
   .dropIndex "idx_iocs_score",
   .index "idx_iocs_family" "iocs" ["malware_family"],
   .index "idx_iocs_host" "iocs" ["host"],
   .index "idx_iocs_report" "iocs" ["report_id"],
   .index "idx_iocs_ip_hex" "iocs" ["ip_hex"],
   .index "idx_iocs_reg_domain" "iocs" ["reg_domain"],
   .index "idx_iocs_valid_until" "iocs" ["valid_until"],
   .index "idx_verdicts_value" "ioc_verdicts" ["ioc_value",
      "org_id"],
   .index "idx_escalations_case" "case_escalations" ["case_id",
      "ts"],
   .index "idx_dns_address" "dns_observations" ["address"],
   .index "idx_dns_addr_hex" "dns_observations" ["addr_hex"],
   .index "idx_obs_src_source" "observable_sources" ["source_id"],
   .index "idx_asn_start" "asn_ranges" ["family", "start_hex"],
   .index "idx_asn_asn" "asn_ranges" ["asn"],
   .index "idx_pbruns_alert" "playbook_runs" ["alert_id"],
   .index "idx_pbruns_pb" "playbook_runs" ["playbook_id", "ts"],
   .index "idx_vulns_asset" "vuln_findings" ["asset_id"],
   .index "idx_dw_url" "dark_web_findings" ["url"],
   .index "idx_dw_cat" "dark_web_findings" ["category"],
   .index "idx_sightings_ioc" "ioc_sightings" ["ioc_id", "ts"],
   .index "idx_enrich_value" "ioc_enrichments" ["ioc_value",
      "provider", "ts"],
   .index "idx_audit_action" "audit_log" ["action"],
   .index "idx_sessions_user" "sessions" ["user_id", "revoked"],
   .index "idx_break_glass_user" "break_glass" ["user_id",
      "deactivated_at"],
   .index "idx_user_org_roles_org" "user_org_roles" ["org_id"],
   .index "idx_saml_replay_exp" "saml_replay" ["expires_at"],
   .index "idx_attack_group_tech" "attack_group_technique"
      ["group_id"],
   .index "idx_attack_family_group" "attack_family_group"
      ["group_id"],
   .index "idx_attack_camp_group" "attack_campaign_group"
      ["group_id"]]

/- `SCHEMA`. -/
def schema : List (SchemaStatement Str) :=
  schemaText.map (SchemaStatement.map lit)

/- The entries of `_MIGRATIONS`. -/
def migrationsText : List (Migration String) :=
  [⟨"connectors", "interval_seconds", .integer 0⟩,
   ⟨"ioc_imports", "duration_ms", .integer 0⟩,
   ⟨"connectors", "state", .text (lit "\x7b\x7d")⟩,
   ⟨"intel_reports", "source", .null⟩,
   ⟨"intel_reports", "external_id", .null⟩,
   ⟨"intel_reports", "source_refs", .text (lit "[]")⟩,
   ⟨"intel_reports", "attack_ids", .text (lit "[]")⟩,
   ⟨"intel_reports", "malware_families", .text (lit "[]")⟩,
   ⟨"intel_reports", "targeted_countries", .text (lit "[]")⟩,
   ⟨"intel_reports", "industries", .text (lit "[]")⟩,
   ⟨"iocs", "report_id", .null⟩,
   ⟨"iocs", "host", .null⟩,
   ⟨"iocs", "ip_hex", .null⟩,
   ⟨"iocs", "reg_domain", .null⟩,
   ⟨"iocs", "valid_until", .null⟩,
   ⟨"cases", "tier", .integer 1⟩,
   ⟨"cases", "conclusion", .null⟩,
   ⟨"cases", "outcome", .null⟩,
   ⟨"cases", "closed_at", .null⟩,
   ⟨"events", "dest_host", .null⟩,
   ⟨"events", "url", .null⟩,
   ⟨"events", "ti_checked", .integer 0⟩,
   ⟨"alerts", "ti_value", .null⟩,
   ⟨"intel_sources", "served_via", .null⟩,
   ⟨"intel_sources", "last_status", .null⟩,
   ⟨"intel_sources", "last_status_detail", .null⟩,
   ⟨"intel_sources", "last_ok", .null⟩,
   ⟨"iocs", "imported_at", .null⟩,
   ⟨"attack_group", "citations", .text (lit "[]")⟩,
   ⟨"attack_campaign", "citations", .text (lit "[]")⟩,
   ⟨"intel_sources", "reliability_reason", .null⟩,
   ⟨"intel_sources", "reliability_set_by", .null⟩,
   ⟨"connectors", "next_allowed_at", .null⟩,
   ⟨"iocs", "intel_score", .integer 0⟩,
   ⟨"saved_hunts", "status", .text (lit "idle")⟩,
   ⟨"saved_hunts", "progress", .integer 0⟩,
   ⟨"saved_hunts", "created", .null⟩,
   ⟨"alerts", "detect_latency_sec", .null⟩,
   ⟨"alerts", "ack_latency_sec", .null⟩,
   ⟨"alerts", "respond_latency_sec", .null⟩,
   ⟨"detection_rules", "definition", .text (lit "\x7b\x7d")⟩,
   ⟨"detection_rules", "mitre_tactic_id", .null⟩,
   ⟨"playbooks", "trigger_match", .text (lit "\x7b\x7d")⟩,
   ⟨"iocs", "status", .text (lit "active")⟩,
   ⟨"iocs", "sightings", .integer 1⟩,
   ⟨"users", "org_id", .null⟩,
   ⟨"assets", "software", .text (lit "[]")⟩,
   ⟨"dark_web_findings", "matched_user", .null⟩,
   ⟨"integrations", "base_url", .null⟩,
   ⟨"integrations", "api_key", .null⟩,
   ⟨"cases", "linked_cases", .text (lit "[]")⟩,
   ⟨"saved_hunts", "schedule_minutes", .integer 0⟩,
   ⟨"saved_hunts", "last_scheduled", .null⟩,
   ⟨"saved_hunts", "auto_alert", .integer 1⟩,
   ⟨"report_schedules", "email", .null⟩,
   ⟨"vuln_findings", "kev", .integer 0⟩,
   ⟨"vuln_findings", "exploit", .integer 0⟩,
   ⟨"alerts", "org_id", .text (lit "org-default")⟩,
   ⟨"cases", "org_id", .text (lit "org-default")⟩,
   ⟨"iocs", "org_id", .text (lit "org-default")⟩,
   ⟨"assets", "org_id", .text (lit "org-default")⟩,
   ⟨"dark_web_findings", "org_id", .text (lit "org-default")⟩,
   ⟨"detection_rules", "org_id", .text (lit "org-default")⟩,
   ⟨"events", "source", .null⟩,
   ⟨"events", "org_id", .text (lit "org-default")⟩,
   ⟨"threat_actors", "org_id", .text (lit "org-default")⟩,
   ⟨"log_sources", "org_id", .text (lit "org-default")⟩,
   ⟨"connectors", "org_id", .text (lit "org-default")⟩,
   ⟨"playbooks", "org_id", .text (lit "org-default")⟩,
   ⟨"playbook_runs", "org_id", .text (lit "org-default")⟩,
   ⟨"saved_hunts", "org_id", .text (lit "org-default")⟩,
   ⟨"scans", "org_id", .text (lit "org-default")⟩,
   ⟨"suppressions", "org_id", .text (lit "org-default")⟩,
   ⟨"notifications", "org_id", .text (lit "org-default")⟩,
   ⟨"iocs", "malware_family", .null⟩,
   ⟨"notifications", "group_key", .null⟩,
   ⟨"notifications", "rollup_count", .integer 1⟩,
   ⟨"saved_views", "org_id", .text (lit "org-default")⟩,
   ⟨"report_schedules", "org_id", .text (lit "org-default")⟩,
   ⟨"api_keys", "org_id", .text (lit "org-default")⟩,
   ⟨"users", "slack_webhook", .null⟩,
   ⟨"users", "slack_min_severity", .text (lit "high")⟩,
   ⟨"users", "mfa_secret", .null⟩,
   ⟨"suppressions", "expires_at", .null⟩,
   ⟨"suppressions", "window_start", .null⟩,
   ⟨"suppressions", "window_end", .null⟩,
   ⟨"events", "claimed_by", .null⟩,
   ⟨"events", "claimed_at", .null⟩,
   ⟨"users", "token_epoch", .integer 0⟩,
   ⟨"users", "mfa_recovery_codes", .null⟩,
   ⟨"webhooks", "secret", .null⟩,
   ⟨"detection_rules", "noise", .null⟩,
   ⟨"webhooks", "org_id", .text (lit "org-default")⟩,
   ⟨"users", "mfa_last_counter", .null⟩,
   ⟨"intel_reports", "org_id", .text (lit "org-default")⟩]

/- `_MIGRATIONS`. -/
def migrations : List (Migration Str) :=
  migrationsText.map (Migration.map lit)

/- A statement on a database, or `none` where it fails. A new
table is empty; an index needs its table and its columns; a
table goes with its indexes. -/
def exec : SchemaStatement Str → Store → Option Store
| .table name columns, db =>
    match db.tables name with
    | some _ => some db
    | none => some (db.put name (some ⟨columns, []⟩))
| .index name owner columns, db =>
    if (db.indexes name).isSome then
      some db
    else
      match db.tables owner with
      | none => none
      | some t =>
          if columns.all t.columns.contains then
            some ⟨db.tables, fun n =>
              if n = name then some owner else db.indexes n⟩
          else
            none
| .dropTable name, db =>
    some ⟨(db.put name none).tables,
      fun n => (db.indexes n).filter (· != name)⟩
| .dropIndex name, db =>
    some ⟨db.tables,
      fun n => if n = name then none else db.indexes n⟩

/- `conn.executescript(SCHEMA)`: the statements up to one that
fails, and whether none did. -/
def runScript : List (SchemaStatement Str) → Store → Store × Bool
| [], db => (db, true)
| s :: rest, db =>
    match exec s db with
    | none => (db, false)
    | some next => runScript rest next

/- The statements one by one, each failure passed over. -/
def runEach
    (statements : List (SchemaStatement Str))
    (db : Store) : Store :=
  statements.foldl (fun db s => (exec s db).getD db) db

/- The effect of `_safe_schema`. -/
def applySchema (db : Store) : Store :=
  match runScript schema db with
  | (applied, true) => applied
  | (partly, false) => runEach schema partly

/- `_safe_schema`, which commits before it runs the script. -/
def safeSchema (c : Conn) : Conn :=
  c.commit.define applySchema

/- `ALTER TABLE .. ADD COLUMN`. -/
def addColumn
    (m : Migration Str)
    (t : StoredTable) : StoredTable where
  columns := t.columns ++ [m.column]
  rows := t.rows.map (· ++ [(m.column, m.default)])

/- What the start fails with. -/
inductive BootError where
  | operational
  | incomplete (missing : List Str)
  | valueError
  | schemaVersion (db code : Int)

/- `_apply_migrations`: the columns it has added, or the
connection it leaves where a table is missing. -/
def applyMigrations :
    List (Migration Str) → Conn → List (Str × Str) →
      Except Conn (Conn × List (Str × Str))
| [], c, added => .ok (c, added)
| m :: rest, c, added =>
    match c.view.tables m.table with
    | none => .error c
    | some t =>
        if t.columns.contains m.column then
          applyMigrations rest c added
        else
          applyMigrations rest
            (c.define (fun db =>
              db.put m.table (some (addColumn m t))))
            (added ++ [(m.table, m.column)])

/- The tables that the schema declares. -/
def declared (statements : List (SchemaStatement Str)) : List Str :=
  statements.filterMap fun
    | .table name _ => some name
    | _ => none

/- The tables that `_verify_schema` misses. -/
def missingTables (db : Store) : List Str :=
  (declared schema).filter (fun t => (db.tables t).isNone)

---- The Gate

section

/- `SCHEMA_VERSION`. -/
def schemaVersion : Int := 23

/- The value that the settings hold for a key. -/
def settingOf (key : Str) (db : Store) : Option SqlVal :=
  (db.tables (lit "settings")).bind fun t =>
    (t.rows.find? (fun r =>
      lookup (lit "key") r == some (.text key))).bind
        (lookup (lit "value"))

variable [Unicode]

/- The recorded version: none, a number, or a `ValueError`. -/
def storedVersion (db : Store) : Except BootError (Option Int) :=
  match settingOf (lit "schema_version") db with
  | none => .ok none
  | some value =>
      let text := pyStr value.value
      if strIsDigit text then
        match readInt text with
        | none => .error .valueError
        | some n => .ok (some n)
      else
        .ok none

def recordVersion (db : Store) : Store :=
  match db.tables (lit "settings") with
  | none => db
  | some t =>
      db.put (lit "settings") (some ⟨t.columns,
        t.rows.filter (fun r =>
          lookup (lit "key") r !=
            some (.text (lit "schema_version"))) ++
          [[(lit "key", .text (lit "schema_version")),
            (lit "value", .text (intStr schemaVersion))]]⟩)

/- What `_schema_version_gate` writes, unless it refuses. -/
def schemaVersionGate
    (allow : Bool)
    (db : Store) : Except BootError (Store → Store) := do
  match ← storedVersion db with
  | none => .ok recordVersion
  | some stored =>
      if schemaVersion < stored then
        if allow then
          .ok id
        else
          .error (.schemaVersion stored schemaVersion)
      else if stored < schemaVersion then
        .ok recordVersion
      else
        .ok id

/- What a pass of the start writes, a failed one up to where it
failed. No pass writes the recorded version. -/
structure Pass where
  run : Store → Store
  keeps :
    ∀ db, settingOf (lit "schema_version") (run db) =
      settingOf (lit "schema_version") db

/- The passes of the start: for a backlog of events, those that
fill columns and tables, and the default workspace. -/
structure StartPasses where
  adopt : Pass
  fill : List Pass
  defaultOrg : Store → Store

/- Whether `DASHBOARD_ALLOW_SCHEMA_DOWNGRADE` lets a newer
database pass. -/
def overridden (allow : Str) : Bool :=
  [lit "1", lit "true", lit "yes"].contains (Unicode.lower allow)

/- `init_db`: what it raises, and what is on disk after it. -/
def initDb
    (passes : StartPasses)
    (allow : Str)
    (db : Store) : Option BootError × Store :=
  match applyMigrations migrations (safeSchema ⟨db, none⟩) [] with
  | .error c => (some .operational, c.close)
  | .ok (c, added) =>
      let c := safeSchema c
      if missingTables c.view != [] then
        (some (.incomplete (missingTables c.view)), c.close)
      else
        let c :=
          if added.contains (lit "events", lit "ti_checked") then
            c.write passes.adopt.run
          else
            c
        let c := passes.fill.foldl (fun c p => c.write p.run) c
        match schemaVersionGate (overridden allow) c.view with
        | .error e => (some e, c.close)
        | .ok record =>
            (none, ((c.write record).write
              passes.defaultOrg).commit.close)

end

---- What The Schema Leaves

/- The tables that the schema takes away. -/
def dropped (statements : List (SchemaStatement Str)) : List Str :=
  statements.filterMap fun
    | .dropTable name => some name
    | _ => none

/- The database after a statement, which may have failed. -/
def after (s : SchemaStatement Str) (db : Store) : Store :=
  (exec s db).getD db

theorem mem_declared
    {statements : List (SchemaStatement Str)} {name : Str} :
    name ∈ declared statements ↔
      ∃ columns, .table name columns ∈ statements := by
  unfold declared
  rw [List.mem_filterMap]
  constructor
  · rintro ⟨s, hS, hName⟩
    cases s with
    | table n columns =>
        rw [← Option.some.inj hName]
        exact ⟨columns, hS⟩
    | index n owner columns => cases hName
    | dropTable n => cases hName
    | dropIndex n => cases hName
  · rintro ⟨columns, hS⟩
    exact ⟨_, hS, rfl⟩

theorem mem_dropped
    {statements : List (SchemaStatement Str)} {name : Str} :
    name ∈ dropped statements ↔
      .dropTable name ∈ statements := by
  unfold dropped
  rw [List.mem_filterMap]
  constructor
  · rintro ⟨s, hS, hName⟩
    cases s with
    | table n columns => cases hName
    | index n owner columns => cases hName
    | dropTable n =>
        rw [← Option.some.inj hName]
        exact hS
    | dropIndex n => cases hName
  · intro hS
    exact ⟨_, hS, rfl⟩

/- An index changes no table. -/
theorem after_index
    (name owner : Str) (columns : List Str) (db : Store) :
    (after (.index name owner columns) db).tables =
      db.tables := by
  rw [after, exec]
  split
  · rfl
  · split
    · rfl
    · split <;> rfl

/- A table that is there is not created again. -/
theorem after_table
    (name : Str) (columns : List Str) (db : Store) (n : Str) :
    (after (.table name columns) db).tables n =
      if n = name ∧ db.tables n = none then
        some ⟨columns, []⟩
      else
        db.tables n := by
  rw [after, exec]
  split
  · rename_i t hThere
    rw [if_neg]
    · rfl
    · rintro ⟨hName, hNone⟩
      rw [hName, hThere] at hNone
      cases hNone
  · rename_i hNone
    by_cases hName : n = name
    · rw [if_pos ⟨hName, by rw [hName]; exact hNone⟩]
      exact if_pos hName
    · rw [if_neg (fun h => hName h.1)]
      exact if_neg hName

/- A statement keeps a table that it does not take away. -/
theorem after_keeps
    {s : SchemaStatement Str} {db : Store} {n : Str}
    {t : StoredTable}
    (hOther : s ≠ .dropTable n) (hTable : db.tables n = some t) :
    (after s db).tables n = some t := by
  cases s with
  | table name columns =>
      rw [after_table, if_neg, hTable]
      rintro ⟨-, hNone⟩
      rw [hTable] at hNone
      cases hNone
  | index name owner columns => rw [after_index, hTable]
  | dropTable name =>
      have hName : n ≠ name := by
        intro hSame
        exact hOther (by rw [hSame])
      exact (if_neg hName).trans hTable
  | dropIndex name => exact hTable

/- A table that is not there is not made by other statements
than its own. -/
theorem after_none
    {s : SchemaStatement Str} {db : Store} {n : Str}
    (hOther : ∀ columns, s ≠ .table n columns)
    (hNone : db.tables n = none) :
    (after s db).tables n = none := by
  cases s with
  | table name columns =>
      rw [after_table, if_neg, hNone]
      rintro ⟨hName, -⟩
      exact hOther columns (by rw [hName])
  | index name owner columns => rw [after_index, hNone]
  | dropTable name =>
      by_cases hName : n = name
      · exact if_pos hName
      · exact (if_neg hName).trans hNone
  | dropIndex name => exact hNone

theorem runEach_cons
    (s : SchemaStatement Str) (rest : List (SchemaStatement Str))
    (db : Store) :
    runEach (s :: rest) db = runEach rest (after s db) :=
  rfl

/- Statements keep a table that none of them takes away. -/
theorem runEach_keeps
    {statements : List (SchemaStatement Str)} {db : Store}
    {n : Str} {t : StoredTable}
    (hOther : n ∉ dropped statements)
    (hTable : db.tables n = some t) :
    (runEach statements db).tables n = some t := by
  induction statements generalizing db with
  | nil => exact hTable
  | cons s rest ih =>
      rw [mem_dropped, List.mem_cons, not_or] at hOther
      rw [runEach_cons]
      apply ih
      · rw [mem_dropped]
        exact hOther.2
      · exact after_keeps (fun h => hOther.1 h.symm) hTable

/- A declared table that is not taken away is there. -/
theorem runEach_whole
    {statements : List (SchemaStatement Str)} {db : Store} {n : Str}
    (hOther : n ∉ dropped statements)
    (hDeclared : n ∈ declared statements) :
    ((runEach statements db).tables n).isSome := by
  induction statements generalizing db with
  | nil => cases hDeclared
  | cons s rest ih =>
      obtain ⟨columns, hMem⟩ := mem_declared.mp hDeclared
      rw [mem_dropped, List.mem_cons, not_or,
        ← mem_dropped] at hOther
      rw [runEach_cons]
      rcases List.mem_cons.mp hMem with hThis | hLater
      · have hMade : ∃ t, (after s db).tables n = some t := by
          rw [← hThis, after_table]
          by_cases hNone : db.tables n = none
          · exact ⟨_, if_pos ⟨rfl, hNone⟩⟩
          · rw [if_neg (fun h => hNone h.2)]
            exact Option.ne_none_iff_exists'.mp hNone
        obtain ⟨t, hT⟩ := hMade
        rw [runEach_keeps hOther.2 hT]
        rfl
      · exact ih hOther.2 (mem_declared.mpr ⟨columns, hLater⟩)

/- A table that is taken away, and that no statement declares,
is gone. -/
theorem runEach_gone
    {statements : List (SchemaStatement Str)} {db : Store} {n : Str}
    (hUndeclared : n ∉ declared statements)
    (hGone : db.tables n = none ∨ n ∈ dropped statements) :
    (runEach statements db).tables n = none := by
  induction statements generalizing db with
  | nil =>
      rcases hGone with hNone | hDropped
      · exact hNone
      · cases hDropped
  | cons s rest ih =>
      have hOther : ∀ columns, s ≠ .table n columns := by
        intro columns hS
        exact hUndeclared (mem_declared.mpr
          ⟨columns, by rw [hS]; exact List.mem_cons_self⟩)
      have hRest : n ∉ declared rest := by
        intro hMem
        obtain ⟨columns, hIn⟩ := mem_declared.mp hMem
        exact hUndeclared (mem_declared.mpr
          ⟨columns, List.mem_cons_of_mem _ hIn⟩)
      rw [runEach_cons]
      apply ih hRest
      rcases hGone with hNone | hDropped
      · exact Or.inl (after_none hOther hNone)
      · rw [mem_dropped, List.mem_cons] at hDropped
        rcases hDropped with hThis | hLater
        · left
          rw [← hThis]
          exact if_pos rfl
        · exact Or.inr (mem_dropped.mpr hLater)

/- Statements change no table of a database that has what they
declare and nothing of what they take away. -/
theorem runEach_same
    {statements : List (SchemaStatement Str)} {db : Store}
    (hWhole :
      ∀ n ∈ declared statements, (db.tables n).isSome)
    (hFree : ∀ n ∈ dropped statements, db.tables n = none) :
    (runEach statements db).tables = db.tables := by
  induction statements generalizing db with
  | nil => rfl
  | cons s rest ih =>
      have hStep : (after s db).tables = db.tables := by
        funext n
        cases hTable : db.tables n with
        | none =>
            refine after_none ?_ hTable
            intro columns hS
            have hSome := hWhole n (mem_declared.mpr
              ⟨columns, by rw [hS]; exact List.mem_cons_self⟩)
            rw [hTable] at hSome
            cases hSome
        | some t =>
            refine after_keeps ?_ hTable
            intro hS
            have hNone := hFree n (mem_dropped.mpr
              (by rw [hS]; exact List.mem_cons_self))
            rw [hTable] at hNone
            cases hNone
      rw [runEach_cons, ih, hStep]
      · intro n hN
        obtain ⟨columns, hIn⟩ := mem_declared.mp hN
        rw [hStep]
        exact hWhole n (mem_declared.mpr
          ⟨columns, List.mem_cons_of_mem _ hIn⟩)
      · intro n hN
        rw [hStep]
        exact hFree n (mem_dropped.mpr
          (List.mem_cons_of_mem _ (mem_dropped.mp hN)))

/- The script runs a part of its statements, or all of them. -/
theorem runScript_cases
    (statements : List (SchemaStatement Str)) (db : Store) :
    (∃ first, first <+: statements ∧
      runScript statements db = (runEach first db, false)) ∨
    runScript statements db = (runEach statements db, true) := by
  induction statements generalizing db with
  | nil => exact Or.inr rfl
  | cons s rest ih =>
      rw [runScript]
      split
      · exact Or.inl ⟨[], List.nil_prefix, rfl⟩
      · rename_i next hNext
        have hAfter : after s db = next := by
          rw [after, hNext]
          rfl
        rcases ih next with ⟨first, hFirst, hRun⟩ | hRun
        · left
          refine ⟨s :: first, ?_, ?_⟩
          · exact List.cons_prefix_cons.mpr ⟨rfl, hFirst⟩
          · rw [hRun, runEach_cons, hAfter]
        · right
          rw [hRun, runEach_cons, hAfter]

/- The schema is applied by running its statements, perhaps
with some of them run before. -/
theorem applySchema_eq
    (db : Store) :
    ∃ first, first <+: schema ∧
      applySchema db = runEach (first ++ schema) db := by
  unfold applySchema
  rcases runScript_cases schema db with
    ⟨first, hFirst, hRun⟩ | hRun
  · refine ⟨first, hFirst, ?_⟩
    have hAppend :
        runEach (first ++ schema) db =
          runEach schema (runEach first db) :=
      List.foldl_append
    rw [hRun, hAppend]
  · refine ⟨[], List.nil_prefix, ?_⟩
    rw [hRun, List.nil_append]

theorem mem_declared_append
    {first : List (SchemaStatement Str)}
    (hFirst : first <+: schema) {n : Str} :
    n ∈ declared (first ++ schema) ↔ n ∈ declared schema := by
  rw [mem_declared, mem_declared]
  constructor
  · rintro ⟨columns, hMem⟩
    rcases List.mem_append.mp hMem with hIn | hIn
    · exact ⟨columns, hFirst.subset hIn⟩
    · exact ⟨columns, hIn⟩
  · rintro ⟨columns, hMem⟩
    exact ⟨columns, List.mem_append_right _ hMem⟩

theorem mem_dropped_append
    {first : List (SchemaStatement Str)}
    (hFirst : first <+: schema) {n : Str} :
    n ∈ dropped (first ++ schema) ↔ n ∈ dropped schema := by
  rw [mem_dropped, mem_dropped, List.mem_append]
  constructor
  · rintro (hIn | hIn)
    · exact hFirst.subset hIn
    · exact hIn
  · exact Or.inr

/- What the schema leaves of a database. -/
structure Applied (db next : Store) : Prop where
  keeps :
    ∀ n t, n ∉ dropped schema → db.tables n = some t →
      next.tables n = some t
  whole :
    ∀ n ∈ declared schema, (next.tables n).isSome
  gone : ∀ n ∈ dropped schema, next.tables n = none
  same :
    (∀ n ∈ declared schema, (db.tables n).isSome) →
      (∀ n ∈ dropped schema, db.tables n = none) →
        next.tables = db.tables

/- No table is declared and taken away. -/
theorem undeclared_of_dropped :
    ∀ n ∈ dropped schema, n ∉ declared schema := by
  decide +kernel

theorem applySchema_applied
    (db : Store) :
    Applied db (applySchema db) := by
  obtain ⟨first, hFirst, hEq⟩ := applySchema_eq db
  rw [hEq]
  refine ⟨?_, ?_, ?_, ?_⟩
  · intro n t hOther hTable
    apply runEach_keeps _ hTable
    rwa [mem_dropped_append hFirst]
  · intro n hN
    apply runEach_whole
    · rw [mem_dropped_append hFirst]
      exact fun h => undeclared_of_dropped n h hN
    · rwa [mem_declared_append hFirst]
  · intro n hN
    apply runEach_gone
    · rw [mem_declared_append hFirst]
      exact undeclared_of_dropped n hN
    · right
      rwa [mem_dropped_append hFirst]
  · intro hWhole hFree
    apply runEach_same
    · intro n hN
      exact hWhole n ((mem_declared_append hFirst).mp hN)
    · intro n hN
      exact hFree n ((mem_dropped_append hFirst).mp hN)

---- What The Migrations Leave

section

/- A column that a table of the database has. -/
def HasColumn (m : Migration Str) (db : Store) : Prop :=
  ∃ t, db.tables m.table = some t ∧ m.column ∈ t.columns

/- What migrations leave of a database. -/
structure Migrated
    (entries : List (Migration Str))
    (db next : Store) : Prop where
  grows :
    ∀ n t, db.tables n = some t →
      ∃ u, next.tables n = some u ∧ t.columns ⊆ u.columns
  others :
    ∀ n, n ∉ entries.map Migration.table →
      next.tables n = db.tables n
  full : ∀ m ∈ entries, HasColumn m next
  same :
    (∀ m ∈ entries, HasColumn m db) → next.tables = db.tables

theorem addColumn_grows
    {m : Migration Str} {db : Store} {t : StoredTable}
    (hTable : db.tables m.table = some t)
    {n : Str} {u : StoredTable}
    (hU : db.tables n = some u) :
    ∃ v, (db.put m.table (some (addColumn m t))).tables n =
        some v ∧ u.columns ⊆ v.columns := by
  by_cases hName : n = m.table
  · have hSame : t = u := by
      rw [hName, hTable] at hU
      exact Option.some.inj hU
    refine ⟨addColumn m t, if_pos hName, ?_⟩
    rw [← hSame]
    exact List.subset_append_left _ _
  · exact ⟨u, (if_neg hName).trans hU, List.Subset.refl _⟩

/- The migrations of tables that are there pass. -/
theorem applyMigrations_migrated
    {entries : List (Migration Str)} {db : Store}
    (hTables :
      ∀ m ∈ entries, (db.tables m.table).isSome)
    (added : List (Str × Str)) :
    ∃ next found,
      applyMigrations entries ⟨db, none⟩ added =
        .ok (⟨next, none⟩, found) ∧
      Migrated entries db next := by
  induction entries generalizing db added with
  | nil =>
      refine ⟨db, added, rfl, ?_, ?_, ?_, ?_⟩
      · exact fun n t hT => ⟨t, hT, List.Subset.refl _⟩
      · exact fun n _ => rfl
      · exact List.forall_mem_nil _
      · exact fun _ => rfl
  | cons m rest ih =>
      rw [List.forall_mem_cons] at hTables
      obtain ⟨t, hT⟩ := Option.isSome_iff_exists.mp hTables.1
      have hView : (⟨db, none⟩ : Conn).view.tables m.table = some t :=
        hT
      rw [applyMigrations, hView]
      by_cases hThere : m.column ∈ t.columns
      · -- the column is there: nothing is written
        obtain ⟨next, found, hRun, hNext⟩ :=
          ih hTables.2 added
        have hTest : t.columns.contains m.column = true :=
          List.contains_iff_mem.mpr hThere
        simp only [hTest, if_true]
        refine ⟨next, found, hRun, hNext.grows, ?_, ?_, ?_⟩
        · intro n hN
          rw [List.map_cons, List.mem_cons, not_or] at hN
          exact hNext.others n hN.2
        · rw [List.forall_mem_cons]
          obtain ⟨u, hU, hSub⟩ := hNext.grows _ _ hT
          exact ⟨⟨u, hU, hSub hThere⟩, hNext.full⟩
        · intro hAll
          exact hNext.same (fun e hE =>
            hAll e (List.mem_cons_of_mem _ hE))
      · -- the column is added, at once
        have hTest : ¬ t.columns.contains m.column = true :=
          fun h => hThere (List.contains_iff_mem.mp h)
        simp only [hTest]
        have hPut :
            ∀ e ∈ rest, ((db.put m.table
              (some (addColumn m t))).tables e.table).isSome := by
          intro e hE
          obtain ⟨u, hU⟩ :=
            Option.isSome_iff_exists.mp (hTables.2 e hE)
          obtain ⟨v, hV, -⟩ := addColumn_grows hT hU
          rw [hV]
          rfl
        obtain ⟨next, found, hRun, hNext⟩ :=
          ih hPut (added ++ [(m.table, m.column)])
        refine ⟨next, found, hRun, ?_, ?_, ?_, ?_⟩
        · intro n u hU
          obtain ⟨v, hV, hSub⟩ := addColumn_grows hT hU
          obtain ⟨w, hW, hMore⟩ := hNext.grows _ _ hV
          exact ⟨w, hW, List.Subset.trans hSub hMore⟩
        · intro n hN
          rw [List.map_cons, List.mem_cons, not_or] at hN
          rw [hNext.others n hN.2]
          exact if_neg hN.1
        · rw [List.forall_mem_cons]
          obtain ⟨w, hW, hMore⟩ :=
            hNext.grows m.table (addColumn m t) (if_pos rfl)
          exact ⟨⟨w, hW, hMore (List.mem_append_right _
            (List.mem_singleton_self _))⟩, hNext.full⟩
        · intro hAll
          obtain ⟨u, hU, hIn⟩ := hAll m List.mem_cons_self
          rw [hT] at hU
          rw [← Option.some.inj hU] at hIn
          exact absurd hIn hThere

---- The Refused Start

/- A database that the schema and the migrations do not touch. -/
structure Settled (db : Store) : Prop where
  whole : ∀ n ∈ declared schema, (db.tables n).isSome
  free : ∀ n ∈ dropped schema, db.tables n = none
  full : ∀ m ∈ migrations, HasColumn m db

/- The tables of the migrations, and the settings, are declared;
no migration is of the settings. -/
theorem migrations_declared :
    (∀ m ∈ migrations, m.table ∈ declared schema) ∧
      lit "settings" ∈ declared schema ∧
        lit "settings" ∉ migrations.map Migration.table := by
  decide +kernel

/- The schema, the migrations and the schema again. -/
structure Prepared (db next : Store) : Prop where
  untouched : Settled db → next.tables = db.tables
  whole : ∀ n ∈ declared schema, (next.tables n).isSome
  gone : ∀ n ∈ dropped schema, next.tables n = none
  full : ∀ m ∈ migrations, HasColumn m next
  settings :
    ∀ t, db.tables (lit "settings") = some t →
      next.tables (lit "settings") = some t

theorem prepared
    (db : Store) :
    ∃ next found,
      applyMigrations migrations (safeSchema ⟨db, none⟩) [] =
        .ok (⟨next, none⟩, found) ∧
      Prepared db (applySchema next) := by
  have hFirst := applySchema_applied db
  obtain ⟨next, found, hRun, hNext⟩ :=
    applyMigrations_migrated
      (fun m hM => hFirst.whole _ (migrations_declared.1 m hM)) []
  have hLast := applySchema_applied next
  have hKept : ∀ n ∈ declared schema, n ∉ dropped schema :=
    fun n hN hGone => undeclared_of_dropped n hGone hN
  refine ⟨next, found, hRun, ?_, hLast.whole, hLast.gone, ?_, ?_⟩
  · intro hSettled
    have hSame := hFirst.same hSettled.whole hSettled.free
    have hMid : next.tables = db.tables := by
      rw [hNext.same, hSame]
      intro m hM
      obtain ⟨t, hT, hIn⟩ := hSettled.full m hM
      exact ⟨t, by rw [hSame]; exact hT, hIn⟩
    rw [hLast.same, hMid]
    · rw [hMid]
      exact hSettled.whole
    · rw [hMid]
      exact hSettled.free
  · intro m hM
    obtain ⟨t, hT, hIn⟩ := hNext.full m hM
    exact ⟨t, hLast.keeps _ _
      (hKept _ (migrations_declared.1 m hM)) hT, hIn⟩
  · intro t hT
    have hOther := hKept _ migrations_declared.2.1
    apply hLast.keeps _ _ hOther
    rw [hNext.others _ migrations_declared.2.2]
    exact hFirst.keeps _ _ hOther hT

variable [Unicode]

omit [Unicode] in
/- The passes write in a transaction, and keep the version. -/
theorem foldl_write
    (passes : List Pass) (c : Conn) :
    (passes.foldl (fun c p => c.write p.run) c).committed =
        c.committed ∧
      settingOf (lit "schema_version")
          (passes.foldl (fun c p => c.write p.run) c).view =
        settingOf (lit "schema_version") c.view := by
  induction passes generalizing c with
  | nil => exact ⟨rfl, rfl⟩
  | cons p passes ih =>
      rw [List.foldl_cons]
      refine ⟨(ih _).1, (ih _).2.trans ?_⟩
      exact p.keeps _

theorem storedVersion_congr
    {db next : Store}
    (hSame :
      settingOf (lit "schema_version") next =
        settingOf (lit "schema_version") db) :
    storedVersion next = storedVersion db := by
  rw [storedVersion, storedVersion, hSame]

theorem gate_refuses
    {db : Store} {stored : Int}
    (hStored : storedVersion db = .ok (some stored))
    (hNewer : schemaVersion < stored) :
    schemaVersionGate false db =
      .error (.schemaVersion stored schemaVersion) := by
  rw [schemaVersionGate, hStored]
  exact if_pos hNewer

/- A database newer than the code is refused, and what is left
on disk is what the schema and the migrations made of it. -/
theorem initDb_refuses
    (passes : StartPasses) {allow : Str} {db : Store} {stored : Int}
    (hStored : storedVersion db = .ok (some stored))
    (hNewer : schemaVersion < stored)
    (hNot : overridden allow = false) :
    (initDb passes allow db).1 =
        some (.schemaVersion stored schemaVersion) ∧
      Prepared db (initDb passes allow db).2 := by
  obtain ⟨next, found, hRun, hNext⟩ := prepared db
  have hSettings :
      settingOf (lit "schema_version") (applySchema next) =
        settingOf (lit "schema_version") db := by
    cases hTable : db.tables (lit "settings") with
    | none =>
        rw [storedVersion, settingOf, hTable] at hStored
        cases hStored
    | some t =>
        rw [settingOf, settingOf, hTable, hNext.settings t hTable]
  have hMissing :
      (missingTables (safeSchema ⟨next, none⟩).view != []) =
        false := by
    have hNone : missingTables (applySchema next) = [] := by
      rw [missingTables, List.filter_eq_nil_iff]
      intro n hN hGone
      have hThere := hNext.whole n hN
      rw [Option.isNone_iff_eq_none.mp hGone] at hThere
      cases hThere
    have hView :
        (safeSchema ⟨next, none⟩).view = applySchema next := rfl
    rw [hView, hNone]
    rfl
  have hAdopted :
      ∀ c : Conn, c = safeSchema ⟨next, none⟩ ∨
          c = (safeSchema ⟨next, none⟩).write passes.adopt.run →
        c.committed = applySchema next ∧
          settingOf (lit "schema_version") c.view =
            settingOf (lit "schema_version") db := by
    rintro c (hIs | hIs)
    · rw [hIs]
      exact ⟨rfl, hSettings⟩
    · rw [hIs]
      exact ⟨rfl, (passes.adopt.keeps _).trans hSettings⟩
  have hEnd :
      ∀ c : Conn, c = safeSchema ⟨next, none⟩ ∨
          c = (safeSchema ⟨next, none⟩).write passes.adopt.run →
        (passes.fill.foldl (fun c p => c.write p.run)
            c).committed = applySchema next ∧
          schemaVersionGate (overridden allow)
              (passes.fill.foldl (fun c p => c.write p.run)
                c).view =
            .error (.schemaVersion stored schemaVersion) := by
    intro c hC
    have hFold := foldl_write passes.fill c
    refine ⟨hFold.1.trans (hAdopted c hC).1, ?_⟩
    rw [hNot]
    apply gate_refuses _ hNewer
    rw [storedVersion_congr
      (hFold.2.trans (hAdopted c hC).2), hStored]
  rw [initDb, hRun]
  simp only [hMissing, Bool.false_eq_true, if_false]
  generalize hC :
    (if found.contains (lit "events", lit "ti_checked") = true then
      (safeSchema ⟨next, none⟩).write passes.adopt.run
    else safeSchema ⟨next, none⟩) = c
  have hIs :
      c = safeSchema ⟨next, none⟩ ∨
        c = (safeSchema ⟨next, none⟩).write passes.adopt.run := by
    rw [← hC]
    split
    · exact Or.inr rfl
    · exact Or.inl rfl
  obtain ⟨hDisk, hGate⟩ := hEnd c hIs
  rw [hGate]
  refine ⟨rfl, ?_⟩
  rw [Conn.close, hDisk]
  exact hNext

/- A refused start leaves every table as it was exactly if the
schema and the migrations have nothing to do. -/
theorem refused_untouched_iff
    (passes : StartPasses)
    (allow : Str)
    (db : Store)
    (stored : Int)
    (hStored : storedVersion db = .ok (some stored))
    (hNewer : schemaVersion < stored)
    (hNot : overridden allow = false) :
    ((initDb passes allow db).1.isSome = true ∧
      (initDb passes allow db).2.tables = db.tables) ↔
        Settled db := by
  obtain ⟨hRaised, hLeft⟩ :=
    initDb_refuses passes hStored hNewer hNot
  constructor
  · rintro ⟨-, hSame⟩
    refine ⟨?_, ?_, ?_⟩
    · intro n hN
      rw [← hSame]
      exact hLeft.whole n hN
    · intro n hN
      rw [← hSame]
      exact hLeft.gone n hN
    · intro m hM
      obtain ⟨t, hT, hIn⟩ := hLeft.full m hM
      exact ⟨t, by rw [← hSame]; exact hT, hIn⟩
  · intro hSettled
    refine ⟨?_, hLeft.untouched hSettled⟩
    rw [hRaised]
    rfl

end

---- A Database Of A Later Release

local instance gateUnicode : Unicode := asciiTables

/- Passes that have nothing left to do. -/
def quietPasses : StartPasses where
  adopt := ⟨id, fun _ => rfl⟩
  fill := []
  defaultOrg := id

/- The settings of a database at version 24. -/
def laterSettings : StoredTable where
  columns := [lit "key", lit "value"]
  rows := [[(lit "key", .text (lit "schema_version")),
    (lit "value", .text (lit "24"))]]

/- A database at version 24 with every table and column that
the code knows. -/
def laterStore : Store where
  tables n :=
    if n = lit "settings" then
      some laterSettings
    else if (declared schema).contains n then
      some ⟨(migrations.filter (fun m => m.table == n)).map
        Migration.column, []⟩
    else
      none
  indexes _ := none

/- The same with a table of a name that the code takes away. -/
def feedsStore : Store :=
  laterStore.put (lit "feeds")
    (some ⟨[lit "id"], [[(lit "id", .text (lit "f1"))]]⟩)

theorem laterStore_version :
    storedVersion laterStore = .ok (some 24) := by
  have hSetting :
      settingOf (lit "schema_version") laterStore =
        some (.text (lit "24")) := by
    have hTable : laterStore.tables (lit "settings") =
        some laterSettings := by
      simp only [laterStore, if_true]
    rw [settingOf, hTable]
    decide
  have hDigits : strIsDigit (lit "24") = true := by
    decide
  have hRead : readInt (lit "24") = some 24 := by
    decide
  rw [storedVersion, hSetting]
  simp only [SqlVal.value, pyStr, hDigits, hRead, if_true]

theorem feedsStore_version :
    storedVersion feedsStore = .ok (some 24) := by
  rw [← laterStore_version]
  apply storedVersion_congr
  have hOther : lit "settings" ≠ lit "feeds" := by
    decide
  have hTable :
      feedsStore.tables (lit "settings") =
        laterStore.tables (lit "settings") :=
    Store.put_other hOther _
  rw [settingOf, settingOf, hTable]

theorem laterStore_settled : Settled laterStore := by
  refine ⟨?_, ?_, ?_⟩
  · intro n hN
    unfold laterStore
    simp only [List.contains_iff_mem, hN, if_true]
    split <;> rfl
  · intro n hN
    have hNot : n ≠ lit "settings" := by
      intro hIs
      rw [hIs] at hN
      exact undeclared_of_dropped _ hN migrations_declared.2.1
    exact (if_neg hNot).trans
      (if_neg fun h => undeclared_of_dropped n hN
        (List.contains_iff_mem.mp h))
  · intro m hM
    have hNot : m.table ≠ lit "settings" := by
      intro hIs
      apply migrations_declared.2.2
      rw [← hIs]
      exact List.mem_map_of_mem hM
    refine ⟨_, (if_neg hNot).trans
      (if_pos (List.contains_iff_mem.mpr
        (migrations_declared.1 m hM))), ?_⟩
    exact List.mem_map_of_mem
      (List.mem_filter.mpr ⟨hM, beq_self_eq_true _⟩)

/- A database that lacks nothing is refused and left as it is. -/
theorem later_untouched :
    (initDb quietPasses [] laterStore).1.isSome = true ∧
      (initDb quietPasses [] laterStore).2.tables =
        laterStore.tables :=
  (refused_untouched_iff quietPasses [] laterStore 24
    laterStore_version (by decide) (by decide)).mpr
      laterStore_settled

theorem overridden_nothing : overridden [] = false := by
  decide

/- A table of the later release is dropped before the refusal. -/
theorem later_table_dropped :
    ¬ ((initDb quietPasses [] feedsStore).1.isSome = true ∧
      (initDb quietPasses [] feedsStore).2.tables =
        feedsStore.tables) := by
  rintro ⟨-, hSame⟩
  have hLeft :=
    (initDb_refuses quietPasses feedsStore_version
      (by decide) overridden_nothing).2
  have hGone := hLeft.gone (lit "feeds") (by decide +kernel)
  rw [hSame] at hGone
  have hThere :
      feedsStore.tables (lit "feeds") =
        some ⟨[lit "id"], [[(lit "id", .text (lit "f1"))]]⟩ := by
    simp only [feedsStore, Store.put, if_true]
  rw [hThere] at hGone
  cases hGone

end ThreatOrbit.Platform

import ContractMigration.Proofs.Solidity.Masking
import ContractMigration.Proofs.Text.Case
import ContractMigration.Cache.History
import ContractMigration.Service.Basic
import ContractMigration.Session.History
import ContractMigration.Settings.Basic
import ContractMigration.Proofs.Solidity.Scanning
import ContractMigration.Proofs.Solidity.Growth
import ContractMigration.Proofs.Analysis.Facts
import ContractMigration.Proofs.Analysis.Growth
import ContractMigration.Proofs.Solidity.Balance
import ContractMigration.Proofs.Solidity.Header
import ContractMigration.Proofs.Solidity.DeclarationRendering
import ContractMigration.Proofs.Solidity.Member
import ContractMigration.Proofs.Solidity.BodyRendering
import ContractMigration.Proofs.Solidity.SignatureRendering
import ContractMigration.Proofs.Analysis.Degradation
import ContractMigration.Proofs.Cache.LastWrite
import ContractMigration.Proofs.Session.Transparency
import ContractMigration.Proofs.Rule.Ownership
import ContractMigration.Proofs.Analysis.Isolation
import ContractMigration.Proofs.Analysis.Mappings
import ContractMigration.Proofs.Solidity.BlockContent
import ContractMigration.Proofs.Solidity.MemberReading
import ContractMigration.Proofs.Skeleton.Names
import ContractMigration.Proofs.Skeleton.Types
import ContractMigration.Proofs.Rule.Failures
import ContractMigration.Proofs.Rule.Variables
import ContractMigration.Proofs.Rule.Patterns
import ContractMigration.Proofs.Audit.ReadBack
import ContractMigration.Proofs.Audit.Recent
import ContractMigration.Proofs.Service.Completeness
import ContractMigration.Proofs.Cache.WriteOrder
import ContractMigration.Proofs.Checklist.Accounting
import ContractMigration.Proofs.Analysis.Record
import ContractMigration.Proofs.Solidity.Context
import ContractMigration.Proofs.Solidity.HeaderSearch
import ContractMigration.Proofs.Solidity.HeaderWalk
import ContractMigration.Proofs.Solidity.ImportPaths
import ContractMigration.Proofs.Solidity.Neighbours
import ContractMigration.Proofs.Solidity.MemberRendering
import ContractMigration.Proofs.Solidity.DeclaredName
import ContractMigration.Proofs.Solidity.TypeBoundary
import ContractMigration.Proofs.Rust.Numbering
import ContractMigration.Proofs.Rust.ValidNames
import ContractMigration.Proofs.Rust.MappingValues
import ContractMigration.Proofs.Rust.TypeTables
import ContractMigration.Proofs.Skeleton.Handlers
import ContractMigration.Proofs.Skeleton.StateAccount
import ContractMigration.Proofs.Solidity.MemberNames
import ContractMigration.Proofs.Solidity.Arguments
import ContractMigration.Proofs.Solidity.Matching
import ContractMigration.Proofs.Solidity.Splitting
import ContractMigration.Proofs.Rust.SnakeCase
import ContractMigration.Proofs.Cost.ExactFigures

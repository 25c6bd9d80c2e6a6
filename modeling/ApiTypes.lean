import ApiTypes.Files.Bytes
import ApiTypes.Main
import ApiTypes.Proofs.Binding.RequestFields
import ApiTypes.Proofs.Generation.Paths
import ApiTypes.Proofs.Reading.Keys
import ApiTypes.Proofs.Resolution.Outcome
import ApiTypes.Proofs.Resolution.Followed
import ApiTypes.Proofs.Resolution.Restriction
import ApiTypes.Proofs.Resolution.Rounds
import ApiTypes.Proofs.Resolution.Locality
import ApiTypes.Proofs.Resolution.Naming
import ApiTypes.Proofs.Resolution.Redirection
import ApiTypes.Proofs.Binding.Dialects
import ApiTypes.Proofs.Binding.TypeNames
import ApiTypes.Proofs.Resolution.Aliases
import ApiTypes.Proofs.TypeScript.Comments
import ApiTypes.Proofs.TypeScript.Optionality
import ApiTypes.Proofs.TypeScript.Enumerations
import ApiTypes.Proofs.TypeScript.Identifiers
import ApiTypes.Proofs.TypeScript.Readability
import ApiTypes.Proofs.Resolution.Descriptions
import ApiTypes.Proofs.Resolution.Substitution
import ApiTypes.Proofs.Binding.Origins
import ApiTypes.Proofs.Generation.Contents
import ApiTypes.Proofs.CommandLine.Effects
import ApiTypes.Proofs.Resolution.Retrying
import ApiTypes.Proofs.Reading.Formats
import ApiTypes.Proofs.Binding.Sharing
import ApiTypes.Proofs.Binding.NamedBodies
import ApiTypes.Proofs.Resolution.Failure
import ApiTypes.Proofs.Resolution.Watching
import ApiTypes.Proofs.Resolution.Nesting
import ApiTypes.Proofs.Binding.SegmentNames
import ApiTypes.Proofs.DocText.OneLine
import ApiTypes.Proofs.Resolution.Cycles
import ApiTypes.Proofs.Resolution.Waiting
import ApiTypes.Proofs.Files.Reports

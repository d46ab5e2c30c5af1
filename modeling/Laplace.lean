import Laplace.ObservationQuery.Creation
import Laplace.Stock.Catalog
import Laplace.QuerySearch.Certified
import Laplace.Cognition.Selection
import Laplace.ObservationQuery.Cooccurrence
import Laplace.Composition.PlanBuilder
import Laplace.Tabular.Utf8
import Laplace.Target.Safetensors
import Laplace.Target.Compile
import Laplace.Chess.Transition
import Laplace.Cognition.Solver
import Laplace.Reference.Mapping
import Laplace.Reference.Topology
import Laplace.Perfcache.ReverseTable
import Laplace.Perfcache.ReferenceEpoch
import Laplace.Evidence.CycleReports
import Laplace.Execution.Partition
import Laplace.Decomposition.CompositionFaithful
import Laplace.Spool.Replay
import Laplace.Decomposition.FixedWidth
import Laplace.Decomposition.Delimited
import Laplace.Perfcache.Admission
import Laplace.UniversalAst.GrammarRegistry
import Laplace.Perfcache.Dependencies
import Laplace.Persistence.OccurrenceBatches
import Laplace.Unicode.Quantize
import Laplace.Unicode.Hilbert
import Laplace.Unicode.Nfd
import Laplace.QuerySearch.Independence
import Laplace.QuerySearch.Frontier
import Laplace.Packets.Totality
import Laplace.Cognition.PacketCodec
import Laplace.Composition.Frontier
import Laplace.Uax29.Partition
import Laplace.Persistence.Order
import Laplace.Uax29.Sentence
import Laplace.Uax29.Grapheme
import Laplace.Uax29.Word
import Laplace.Geometry.Mean
import Laplace.Cognition.Layers
import Laplace.Decomposition.Tree
import Laplace.Perfcache.ManifestCodec
import Laplace.Execution.Providers

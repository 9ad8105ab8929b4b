import DDSFunctionGen.Fat.Table
import Mathlib.Data.List.Chain

/-!
# Cluster chains

The table links the clusters of a file in order. Their sectors, one cluster after the
other, are the file's sectors, and what these contain its bytes.
-/

namespace DDSFunctionGen.Fat

open DDSFunctionGen.Sequences

/-- The numbers of clusters: the first two entries of the table stand for none. -/
structure Mount.IsCluster (mount : Mount) (clst : Nat) : Prop where
  first : 2 ≤ clst
  last : clst < mount.nFatent

/-- The first sector of a cluster. -/
def Mount.firstSector (mount : Mount) (clst : Nat) : Nat :=
  mount.database + mount.csize * (clst - 2)

/-- Clusters of which each is linked to the one after it. -/
structure Chain (mount : Mount) (image : Image) where
  clusters : List Nat
  areClusters : ∀ clst ∈ clusters, mount.IsCluster clst
  linked : clusters.IsChain fun clst later => mount.next image clst = later

/-- A file: its chain, which may be longer than it needs, and its size. -/
structure File (mount : Mount) (image : Image) extends Chain mount image where
  size : Nat
  size_lt : size < 2 ^ 32
  enough : size ≤ 512 * (mount.csize * clusters.length)

variable {mount : Mount} {image : Image}

/-- The sectors of a cluster. -/
def Mount.clusterSectors (mount : Mount) (clst : Nat) : List Nat :=
  List.range' (mount.firstSector clst) mount.csize

namespace Chain

variable (chain : Chain mount image)

def sectors : List Nat := (chain.clusters.map mount.clusterSectors).flatten

def bytes : List UInt8 := (chain.sectors.map image.sector).flatten

end Chain

/-- What is read from a file. -/
def File.content (file : File mount image) : List UInt8 := file.bytes.take file.size

namespace Mount.Fits

variable (fits : mount.Fits image)
include fits

theorem csize_pos : 0 < mount.csize := by
  obtain ⟨exponent, -, power⟩ := fits.csize
  rw [power]
  exact Nat.two_pow_pos exponent

/-- A cluster lies on the drive, behind the reserved sectors. -/
theorem firstSector_inside {clst : Nat} (isCluster : mount.IsCluster clst) :
    0 < mount.firstSector clst ∧ mount.firstSector clst + mount.csize ≤ image.size := by
  have reserved := fits.reserved
  have tableFirst := fits.tableFirst
  have inside := fits.inside
  have last := isCluster.last
  have below : mount.csize * (clst - 2 + 1) ≤ mount.csize * (mount.nFatent - 2) :=
    Nat.mul_le_mul_left _ (by have := isCluster.first; omega)
  rw [Nat.mul_succ] at below
  unfold firstSector
  omega

/-- `clst2sect` finds the first sector of a cluster. -/
theorem clst2sect_eq {clst : Nat} (isCluster : mount.IsCluster clst) :
    clst2sect mount clst = mount.firstSector clst := by
  have first := isCluster.first
  have last := isCluster.last
  have bound := fits.count
  have inside := (fits.firstSector_inside isCluster).2
  have below := image.size_lt
  have number : dword (clst + 2 ^ 32 - 2) = clst - 2 := by
    unfold dword
    omega
  have entries : dword (mount.nFatent + 2 ^ 32 - 2) = mount.nFatent - 2 := by
    unfold dword
    omega
  unfold firstSector at inside
  rw [clst2sect, number, entries, if_neg (by omega), firstSector, dword_of_lt (by omega)]

/-- `clst2sect` rejects every other number. -/
theorem clst2sect_eq_zero {clst : Nat} (word : clst < 2 ^ 32) (other : ¬ mount.IsCluster clst) :
    clst2sect mount clst = 0 := by
  have outside : clst < 2 ∨ mount.nFatent ≤ clst := by
    by_cases first : 2 ≤ clst
    · exact .inr (Nat.le_of_not_lt fun last => other ⟨first, last⟩)
    · exact .inl (Nat.lt_of_not_le first)
  have clusters := fits.clusters
  have bound := fits.count
  have entries : dword (mount.nFatent + 2 ^ 32 - 2) = mount.nFatent - 2 := by
    unfold dword
    omega
  have number : mount.nFatent - 2 ≤ dword (clst + 2 ^ 32 - 2) := by
    unfold dword
    omega
  rw [clst2sect, entries, if_pos number]

end Mount.Fits

namespace Chain

variable {chain : Chain mount image}

theorem isCluster {i clst : Nat} (isNth : chain.clusters[i]? = some clst) : mount.IsCluster clst :=
  chain.areClusters clst (List.mem_of_getElem? isNth)

/-- The table links every cluster to the one after it. -/
theorem next_eq {i clst later : Nat} (isNth : chain.clusters[i]? = some clst)
    (isLater : chain.clusters[i + 1]? = some later) : mount.next image clst = later := by
  obtain ⟨inside, rfl⟩ := List.getElem?_eq_some_iff.mp isLater
  obtain ⟨-, rfl⟩ := List.getElem?_eq_some_iff.mp isNth
  exact chain.linked.getElem i inside

/-- The clusters' sectors are blocks of the cluster size. -/
theorem uniform (clusters : List Nat) : Uniform mount.csize (clusters.map mount.clusterSectors) :=
  Uniform.map fun _ _ => List.length_range'

theorem cluster_sectors {i clst : Nat} (isNth : chain.clusters[i]? = some clst) :
    (chain.clusters.map mount.clusterSectors)[i]? = some (mount.clusterSectors clst) := by
  rw [List.getElem?_map, isNth]
  rfl

/-- A sector of the chain. -/
theorem sector_eq {i clst offset : Nat} (isNth : chain.clusters[i]? = some clst)
    (inCluster : offset < mount.csize) :
    chain.sectors[mount.csize * i + offset]? = some (mount.firstSector clst + offset) := by
  have element := (uniform chain.clusters).getElem?_flatten (cluster_sectors isNth) inCluster
  rw [Mount.clusterSectors, List.getElem?_range' inCluster, Nat.one_mul] at element
  exact element

/-- Sectors of one cluster. -/
theorem sectors_within {i clst offset count : Nat} (isNth : chain.clusters[i]? = some clst)
    (fits : offset + count ≤ mount.csize) :
    (chain.sectors.drop (mount.csize * i + offset)).take count =
      List.range' (mount.firstSector clst + offset) count := by
  have part := (uniform chain.clusters).flatten_within (cluster_sectors isNth) fits
  rw [Mount.clusterSectors, List.drop_range', Nat.mul_one,
    List.take_range'_of_length_ge (by omega)] at part
  exact part

theorem length_sectors : chain.sectors.length = mount.csize * chain.clusters.length := by
  rw [sectors, (uniform chain.clusters).length_flatten, List.length_map]

theorem length_bytes : chain.bytes.length = 512 * (mount.csize * chain.clusters.length) := by
  rw [bytes, (image.uniform chain.sectors).length_flatten, List.length_map, length_sectors]

/-- Bytes of one sector of the chain. -/
theorem bytes_within {j sector offset count : Nat} (isSector : chain.sectors[j]? = some sector)
    (fits : offset + count ≤ 512) :
    (chain.bytes.drop (512 * j + offset)).take count =
      ((image.sector sector).drop offset).take count := by
  refine (image.uniform chain.sectors).flatten_within ?_ fits
  rw [List.getElem?_map, isSector]
  rfl

/-- Whole sectors of one cluster. -/
theorem bytes_sectors {i clst offset count : Nat} (isNth : chain.clusters[i]? = some clst)
    (fits : offset + count ≤ mount.csize) :
    (chain.bytes.drop (512 * (mount.csize * i + offset))).take (512 * count) =
      image.sectors (mount.firstSector clst + offset) count := by
  have blocks := (image.uniform chain.sectors).flatten_blocks (mount.csize * i + offset) count
  rw [← List.map_drop, ← List.map_take, sectors_within isNth fits] at blocks
  exact blocks

end Chain

namespace File

variable {file : File mount image}

theorem length_content : file.content.length = file.size := by
  have enough := file.enough
  rw [content, List.length_take, Chain.length_bytes, Nat.min_eq_left enough]

/-- A read inside the file is one of its chain's bytes. -/
theorem content_within {start count : Nat} (inside : start + count ≤ file.size) :
    (file.content.drop start).take count = (file.bytes.drop start).take count := by
  rw [content, List.drop_take, List.take_take, Nat.min_eq_left (by omega)]

/-- Every position in the file lies in one of its clusters. -/
theorem cluster_at {position : Nat} (inside : position < file.size) :
    ∃ clst, file.clusters[position / 512 / mount.csize]? = some clst := by
  have enough := file.enough
  have sector : position / 512 < mount.csize * file.clusters.length := by omega
  have index : position / 512 / mount.csize < file.clusters.length :=
    Nat.div_lt_of_lt_mul sector
  exact ⟨_, List.getElem?_eq_getElem index⟩

theorem treeMount_areClusters (id : Nat) :
    ∀ clst ∈ [341, 342], (treeMount id).IsCluster clst := by
  have entries : (treeMount id).nFatent = 343 := rfl
  intro clst member
  obtain rfl | rfl := List.mem_pair.mp member <;>
    exact ⟨by decide, by rw [entries]; decide⟩

/-- The file of the volume with a directory, in two clusters. -/
def tree (id : Nat) (content : List UInt8) (short : content.length ≤ 1024) :
    File (treeMount id) (treeImage content) where
  clusters := [341, 342]
  areClusters := treeMount_areClusters id
  linked := List.isChain_pair.mpr (treeMount_links id content).2.1
  size := content.length
  size_lt := Nat.lt_of_le_of_lt short (by decide)
  enough := short

/-- Two sectors that begin with the parts of a content. -/
theorem take_paddedSectors {content : List UInt8} (short : content.length ≤ 1024) :
    (paddedSector (content.take 512) ++ paddedSector (content.drop 512)).take content.length =
      content := by
  simp only [paddedSector, List.take_take, Nat.min_self, List.length_take, List.length_drop,
    List.append_assoc]
  by_cases one : content.length ≤ 512
  · rw [List.take_of_length_le one, List.take_left]
  · have full : 512 - min 512 content.length = 0 := by omega
    have rest : (content.drop 512).length ≤ 512 := by
      rw [List.length_drop]
      omega
    rw [full, List.replicate_zero, List.nil_append, List.take_of_length_le rest,
      ← List.append_assoc, List.take_append_drop, List.take_left]

theorem tree_content (id : Nat) {content : List UInt8} (short : content.length ≤ 1024) :
    (tree id content short).content = content := by
  have sectors : (tree id content short).sectors = [344, 345] := by
    simp [Chain.sectors, tree, Mount.clusterSectors, Mount.firstSector, treeMount]
  have first : (treeImage content).sector 344 = paddedSector (content.take 512) := by
    simp [treeImage, treeSector]
  have second : (treeImage content).sector 345 = paddedSector (content.drop 512) := by
    simp [treeImage, treeSector]
  rw [File.content, Chain.bytes, sectors, List.map_cons, List.map_singleton, List.flatten_cons,
    List.flatten_singleton, first, second]
  exact take_paddedSectors short

end File
end DDSFunctionGen.Fat
